import InlineCompletion.Proofs.Context.Introductions
import InlineCompletion.Proofs.Scan.Unclosed
import Mathlib.Data.List.Find

/-!
Bare `default:` labels, which may be keys. A brace behind such a label leaves the question whether the cursor is in
an object literal to the brace around it, for which the window is read once more as it was in front of the label.
Nothing is lost by that: the braces that are open there are the outer ones of the whole window, with the same texts
in front, and the same semicolons end the scan. So the first brace without a bare label decides, and it is found in
the matching of the window as it is given.
-/

namespace InlineCompletion.Scan

open Text

/-! What is open around the brace that the scan finds. -/

section Outer

variable {front rest plain code : List (Char × Nat × Nat)} {place semicolon : Nat × Nat} {depth : Nat}

/-- An innermost brace at the end of the code closes nothing, so the same semicolons end a scan for which no closing
brace waits. -/
theorem stops_concat_innermost :
    Stops (front ++ [(openBrace, place)]) 0 semicolon ↔ Stops front 0 semicolon := by
  have same (closing : Nat × Nat) :
      (closeBrace, closing) ∈ front ++ [(openBrace, place)] ↔ (closeBrace, closing) ∈ front := by
    simp [braces_apart.symm]
  constructor
  · rintro ⟨matched, -⟩
    rw [Matching.ofCode_concat, Matching.read_opener braces_apart] at matched
    exact ⟨fun closing member => matched closing ((same closing).mpr member), nofun⟩
  · rintro ⟨matched, -⟩
    refine ⟨fun closing member => ?_, nofun⟩
    rw [Matching.ofCode_concat, Matching.read_opener braces_apart]
    exact matched closing ((same closing).mp member)

/-- Below the brace that the scan finds lies what is open in front of it, and a semicolon in front of it ends a scan
exactly if it ends one that begins there. By induction on what stands behind the brace. -/
theorem outer_of_seekBack (ordered : (front ++ (openBrace, place) :: rest).Pairwise fun a b => Before a.2 b.2)
    (found : seekBack depth (front ++ (openBrace, place) :: rest).reverse = some place) :
    (Matching.ofCode openBrace closeBrace (front ++ (openBrace, place) :: rest)).opened.drop depth =
        place :: (Matching.ofCode openBrace closeBrace front).opened ∧
      ∀ semicolon, (';', semicolon) ∈ front →
        (Stops (front ++ (openBrace, place) :: rest) depth semicolon ↔ Stops front 0 semicolon) := by
  induction rest using List.reverseRecOn generalizing depth with
  | nil =>
    have fresh : ∀ earlier ∈ front, Before earlier.2 place := fun earlier member =>
      (List.pairwise_append.mp ordered).2.2 _ member (openBrace, place) (by simp)
    cases depth with
    | zero =>
      rw [Matching.ofCode_concat, Matching.read_opener braces_apart]
      exact ⟨rfl, fun semicolon _ => stops_concat_innermost⟩
    | succ outer =>
      rw [List.reverse_append, List.reverse_singleton, List.singleton_append] at found
      have before : seekBack outer front.reverse = some place := by simpa [seekBack, braces_apart] using found
      have lands := (seekBack_eq_some_iff (List.pairwise_append.mp ordered).1 outer).mp before
      have member := Matching.mem_opened braces_apart (List.mem_of_getElem? lands.1)
      exact absurd (fresh _ member) (Before.irrefl place)
  | append_singleton rest last ih =>
    obtain ⟨c, last⟩ := last
    rw [← List.cons_append, ← List.append_assoc] at ordered found ⊢
    obtain ⟨sorted, -, order⟩ := List.pairwise_append.mp ordered
    have later : ∀ earlier ∈ front ++ (openBrace, place) :: rest, Before earlier.2 last :=
      fun earlier member => order _ member (c, last) (by simp)
    have inside {semicolon : Nat × Nat} (member : (';', semicolon) ∈ front) :
        (';', semicolon) ∈ front ++ (openBrace, place) :: rest := List.mem_append_left _ member
    rw [List.reverse_append, List.reverse_singleton, List.singleton_append, seekBack.eq_def] at found
    dsimp only at found
    by_cases closes : c = closeBrace
    · subst closes
      rw [if_pos rfl] at found
      obtain ⟨below, stops⟩ := ih sorted found
      rw [Matching.ofCode_concat, Matching.opened_read_closer, List.drop_tail]
      exact ⟨below, fun semicolon member => (stops_concat_closing later (inside member)).trans (stops _ member)⟩
    by_cases opens : c = openBrace
    · subst opens
      rw [if_neg closes, if_pos rfl] at found
      cases depth with
      | zero =>
        cases found
        exact absurd (later (openBrace, place) (by simp)) (Before.irrefl place)
      | succ outer =>
        obtain ⟨below, stops⟩ := ih sorted found
        rw [Matching.ofCode_concat, Matching.read_opener braces_apart, List.drop_succ_cons]
        exact ⟨below, fun semicolon member => (stops_concat_opening later (inside member)).trans (stops _ member)⟩
    · rw [if_neg closes, if_neg opens] at found
      split at found
      · cases found
      · obtain ⟨below, stops⟩ := ih sorted found
        rw [Matching.ofCode_concat, Matching.read_other opens closes]
        exact ⟨below, fun semicolon member => (stops_concat_other opens closes).trans (stops _ member)⟩

/-- Characters at which no scan for braces stops. -/
def Plain (code : List (Char × Nat × Nat)) : Prop :=
  ∀ numbered ∈ code, numbered.1 ≠ openBrace ∧ numbered.1 ≠ closeBrace ∧ numbered.1 ≠ ';'

theorem ofCode_append_plain (even : Plain plain) :
    Matching.ofCode openBrace closeBrace (front ++ plain) = Matching.ofCode openBrace closeBrace front := by
  induction plain using List.reverseRecOn with
  | nil => rw [List.append_nil]
  | append_singleton plain last ih =>
    obtain ⟨opens, closes, -⟩ := even last (by simp)
    rw [← List.append_assoc, Matching.ofCode_concat, Matching.read_other opens closes]
    exact ih fun numbered member => even numbered (List.mem_append_left _ member)

theorem stops_append_plain (even : Plain plain) :
    Stops (front ++ plain) depth semicolon ↔ Stops front depth semicolon := by
  induction plain using List.reverseRecOn with
  | nil => rw [List.append_nil]
  | append_singleton plain last ih =>
    obtain ⟨opens, closes, -⟩ := even last (by simp)
    rw [← List.append_assoc, stops_concat_other opens closes]
    exact ih fun numbered member => even numbered (List.mem_append_left _ member)

end Outer

/-! The open braces of a window, from the innermost one outwards. -/

variable {window : List Text} {line : Text} {n : Nat}

theorem Before.trans {a b c : Nat × Nat} (first : Before a b) (second : Before b c) : Before a c := by
  unfold Before at *
  omega

theorem before_or_before {a b : Nat × Nat} (apart : a ≠ b) : Before a b ∨ Before b a := by
  have apart : ¬ (a.1 = b.1 ∧ a.2 = b.2) := fun ⟨first, second⟩ => apart (Prod.ext first second)
  unfold Before
  omega

theorem SeenAt.unique {place : Nat × Nat} {c d : Char} (first : SeenAt window place c)
    (second : SeenAt window place d) : c = d := by
  obtain ⟨row, there, here⟩ := first
  obtain ⟨other, there', here'⟩ := second
  cases there.symm.trans there'
  exact Option.some_inj.mp (here.symm.trans here')

theorem pairwise_opened (window : List Text) :
    (braces window).opened.Pairwise fun inner outer => Before outer inner := by
  refine List.Pairwise.sublist (Matching.opened_sublist _) ?_
  rw [List.pairwise_reverse]
  exact List.pairwise_map.mpr (pairwise_placed window)

/-- A semicolon behind an open brace is behind all that lie around it. -/
theorem isSome_of_mem_opened {place : Nat × Nat} (member : place ∈ (braces window).opened)
    (free : ∀ semicolon, Before place semicolon → ¬ Ends window semicolon) : (unmatchedBrace window).isSome := by
  cases given : (braces window).opened with
  | nil => cases given ▸ member
  | cons inner outer =>
    have innermost : unmatchedBrace window = some inner := by
      refine unmatchedBrace_eq_some_iff.mpr ⟨by rw [given]; rfl, fun semicolon behind => free semicolon ?_⟩
      rcases List.mem_cons.mp (given ▸ member) with rfl | further
      · exact behind
      · exact ((List.pairwise_cons.mp (given ▸ pairwise_opened window)).1 place further).trans behind
    rw [innermost]
    rfl

/-! The code of a line up to a character of its code. -/

theorem CommentAt.of_take {start : Nat} (inside : start < n) (comment : CommentAt (line.take n) start) :
    CommentAt line start := by
  obtain ⟨begins, outside⟩ := comment
  refine ⟨?_, fun within => outside ((inLiteral_take inside).mpr within)⟩
  rw [startsWith, List.isPrefixOf_iff_prefix] at begins ⊢
  exact begins.trans ((List.take_prefix n line).drop start)

theorem codeOf_take (inside : n < (codeOf line).length) : codeOf (line.take n) = (codeOf line).take n := by
  have uncommented : ¬ InComment line n :=
    (getElem?_codeOf_eq_some_iff.mp (List.getElem?_eq_getElem inside)).1
  refine List.ext_getElem? fun j => Option.ext fun c => ?_
  rw [List.getElem?_take, getElem?_codeOf_eq_some_iff]
  by_cases before : j < n
  · have free : ¬ InComment line j := fun ⟨start, le, comment⟩ => uncommented ⟨start, by omega, comment⟩
    have free' : ¬ InComment (line.take n) j := fun ⟨start, le, comment⟩ =>
      free ⟨start, le, comment.of_take (Nat.lt_of_le_of_lt le before)⟩
    rw [if_pos before, getElem?_codeOf_eq_some_iff, List.getElem?_take_of_lt before]
    simp only [inLiteral_take before, free, free']
  · rw [if_neg before, List.getElem?_take, if_neg before]
    simp

theorem placed_append_cons (above below : List Text) (line : Text) :
    ∃ rest, placed (above ++ line :: below) = placed above ++ placedLine line above.length ++ rest :=
  ⟨(below.zipIdx (above.length + 1)).flatMap fun numbered => placedLine numbered.1 numbered.2,
    by simp [placed, List.zipIdx_append]⟩

/-- A line from its start to a brace in its code. -/
theorem placedLine_split {column : Nat} (le : n ≤ column) (brace : (codeOf line)[column]? = some openBrace)
    (row : Nat) :
    ∃ plain rest, placedLine line row = placedLine (line.take n) row ++ plain ++ (openBrace, row, column) :: rest ∧
      ∀ numbered ∈ plain, ∃ k, n ≤ k ∧ k < column ∧ (codeOf line)[k]? = some numbered.1 := by
  obtain ⟨inside, brace⟩ := List.getElem?_eq_some_iff.mp brace
  have whole : codeOf line = codeOf (line.take n) ++ ((codeOf line).take column).drop n ++
      openBrace :: (codeOf line).drop (column + 1) := by
    have front : (codeOf line).take n = ((codeOf line).take column).take n := by rw [List.take_take, Nat.min_eq_left le]
    rw [codeOf_take (Nat.lt_of_le_of_lt le inside), front, List.take_append_drop, ← brace, List.getElem_cons_drop,
      List.take_append_drop]
  have size : (codeOf (line.take n)).length = n := by
    rw [codeOf_take (Nat.lt_of_le_of_lt le inside), List.length_take_of_le (by omega)]
  refine ⟨((((codeOf line).take column).drop n).zipIdx n).map fun numbered => (numbered.1, row, numbered.2),
    (((codeOf line).drop (column + 1)).zipIdx (column + 1)).map fun numbered => (numbered.1, row, numbered.2), ?_, ?_⟩
  · have column_eq : n + (((codeOf line).take column).drop n).length = column := by
      rw [List.length_drop, List.length_take_of_le inside.le]
      omega
    unfold placedLine
    conv_lhs => rw [whole]
    simp only [List.zipIdx_append, List.zipIdx_cons, List.map_append, List.map_cons, List.length_append, size,
      Nat.zero_add, column_eq]
  · simp only [List.mem_map, Prod.exists, List.mk_mem_zipIdx_iff_le_and_getElem?_sub]
    rintro _ ⟨c, k, ⟨above, here⟩, rfl⟩
    have here : ((codeOf line).take column)[n + (k - n)]? = some c := by rw [← List.getElem?_drop]; exact here
    rw [Nat.add_sub_cancel' above, List.getElem?_take] at here
    split at here
    · next before => exact ⟨k, above, before, here⟩
    · cases here

end InlineCompletion.Scan

namespace InlineCompletion.ObjectLiteral

open Text Scan

variable {window inner : List Text} {index column : Nat} {place semicolon : Nat × Nat} {line : Text}

/-- Between what is kept of a line in front of a labelled brace and the brace stand the colon, if the label is there,
and white space. -/
theorem exists_front (bare : isBareDefault (introduction window index column) = true) :
    ∃ rest, (window.getD index []).take column = (trimRight ((window.getD index []).take column)).dropLast ++ rest ∧
      ∀ c ∈ rest, isBlank c = true ∨ c = ':' := by
  obtain ⟨white, whole, blank⟩ := dropTrailing_append isBlank ((window.getD index []).take column)
  have whole : (window.getD index []).take column = trimRight ((window.getD index []).take column) ++ white := whole
  have last := getLast?_dropTrailing isBlank ((window.getD index []).take column)
  have last : ∀ c ∈ (trimRight ((window.getD index []).take column)).getLast?, isBlank c = false := last
  unfold introduction at bare
  dsimp only at bare
  split at bare
  · next empty =>
    rw [List.isEmpty_iff.mp empty, List.nil_append] at whole
    exact ⟨white, by rw [List.isEmpty_iff.mp empty]; exact whole, fun c member => .inl (blank c member)⟩
  · rcases colon_of_isCaseLabel (isCaseLabel_of_isBareDefault bare) with ⟨front, same⟩ | ⟨front, same⟩
    · refine ⟨':' :: white, ?_, fun c member => ?_⟩
      · rw [← same, List.dropLast_concat, List.append_cons, same]
        exact whole
      · exact (List.mem_cons.mp member).symm.imp_left (blank c)
    · have solid := last '\n' (by rw [← same]; simp)
      cases solid

theorem plain_of_even {c : Char} (even : isBlank c = true ∨ c = ':') : c ≠ openBrace ∧ c ≠ closeBrace ∧ c ≠ ';' := by
  refine ⟨?_, ?_, ?_⟩ <;> rintro rfl <;> revert even <;> decide

/-- The code in front of a labelled brace is that of the window in front of its label, but for characters at which
no scan stops. -/
theorem placed_beforeLabel (found : unmatchedBrace window = some (index, column))
    (bare : isBareDefault (introduction window index column) = true) :
    ∃ plain rest, Plain plain ∧
      placed window = placed (beforeLabel window index column) ++ plain ++ (openBrace, index, column) :: rest := by
  obtain ⟨line, there, brace⟩ := (balanced_of_unmatchedBrace found).1
  obtain ⟨inside, same⟩ := List.getElem?_eq_some_iff.mp there
  obtain ⟨rest, front, even⟩ := exists_front bare
  have here : window.getD index [] = line := by rw [List.getD_eq_getElem?_getD, there]; rfl
  rw [here] at front
  set kept := (trimRight (line.take column)).dropLast with kept_eq
  have le : kept.length ≤ column := by
    have whole := congrArg List.length front
    rw [List.length_append, List.length_take] at whole
    omega
  have cut : line.take kept.length = kept := by
    have short := congrArg (List.take kept.length) front
    rwa [List.take_take, Nat.min_eq_left le, List.take_left] at short
  obtain ⟨plain, more, split, shown⟩ := placedLine_split le brace index
  obtain ⟨below, whole⟩ := placed_append_cons (window.take index) (window.drop (index + 1)) line
  have size : (window.take index).length = index := List.length_take_of_le inside.le
  have lines : window = window.take index ++ line :: window.drop (index + 1) := by
    rw [← same, List.getElem_cons_drop, List.take_append_drop]
  have inner : placed (beforeLabel window index column) = placed (window.take index) ++ placedLine kept index := by
    rw [beforeLabel, here, ← kept_eq]
    simp [placed, List.zipIdx_append, size]
  refine ⟨plain, more ++ below, fun numbered member => ?_, ?_⟩
  · obtain ⟨k, above, before, seen⟩ := shown numbered member
    obtain ⟨-, d, stands, shows⟩ := getElem?_codeOf_eq_some_iff.mp seen
    have there : d ∈ rest := by
      have stands : (line.take column)[k]? = some d := by rwa [List.getElem?_take_of_lt before]
      rw [front, List.getElem?_append_right above] at stands
      exact List.mem_of_getElem? stands
    rw [← shows]
    split
    · exact ⟨by decide, by decide, by decide⟩
    · exact plain_of_even (even d there)
  · rw [← lines] at whole
    rw [whole, inner, size, split, cut]
    simp only [List.append_assoc, List.cons_append]

/-- The question whether an object literal is open is handed on to the window in front of a bare label. -/
def Asks (window inner : List Text) : Prop :=
  ∃ index column, unmatchedBrace window = some (index, column) ∧
    isBareDefault (introduction window index column) = true ∧ inner = beforeLabel window index column

/-- The text in front of a brace of the window. -/
def frontOf (window : List Text) (place : Nat × Nat) : Text :=
  introduction window place.1 place.2

def IsUnlabelled (window : List Text) (place : Nat × Nat) : Bool :=
  !isBareDefault (frontOf window place)

/-- The first of the open braces, from the innermost one outwards, that has no bare label in front. -/
def deciding? (window : List Text) : Option (Nat × Nat) :=
  (braces window).opened.find? (IsUnlabelled window)

/-- No semicolon ends the scan outwards before it comes to the brace. -/
def Reached (window : List Text) (place : Nat × Nat) : Prop :=
  ∀ semicolon, Before place semicolon → ¬ Ends window semicolon

/-- What is open in front of the label are the other braces of the window, and the same semicolons in front of the
labelled brace end a scan. -/
theorem outer_beforeLabel (found : unmatchedBrace window = some (index, column))
    (bare : isBareDefault (introduction window index column) = true) :
    (braces window).opened = (index, column) :: (braces (beforeLabel window index column)).opened ∧
      ∀ semicolon, SeenAt (beforeLabel window index column) semicolon ';' →
        (Ends window semicolon ↔ Ends (beforeLabel window index column) semicolon) := by
  obtain ⟨plain, rest, even, split⟩ := placed_beforeLabel found bare
  have scan := (unmatchedBrace_eq window).symm.trans found
  have ordered := pairwise_placed window
  rw [split] at scan ordered
  obtain ⟨below, stops⟩ := outer_of_seekBack ordered scan
  rw [← split, ofCode_append_plain even] at below
  refine ⟨below, fun semicolon seen => ?_⟩
  have inside := mem_placed.mpr seen
  have stops := stops semicolon (List.mem_append_left _ inside)
  rw [← split, stops_append_plain even] at stops
  have within : (';', semicolon) ∈ placed window := by
    rw [split, List.append_assoc]
    exact List.mem_append_left _ inside
  rw [ends_iff, ends_iff, stops]
  simp [inside, within]

/-- Whatever semicolon stands in front of a labelled brace stands in front of its label. -/
theorem seenAt_beforeLabel (found : unmatchedBrace window = some (index, column))
    (bare : isBareDefault (introduction window index column) = true) (seen : SeenAt window semicolon ';')
    (before : Before semicolon (index, column)) : SeenAt (beforeLabel window index column) semicolon ';' := by
  obtain ⟨plain, rest, even, split⟩ := placed_beforeLabel found bare
  have ordered := pairwise_placed window
  have member := mem_placed.mpr seen
  rw [split] at member ordered
  obtain ⟨-, behind, -⟩ := List.pairwise_append.mp ordered
  rcases List.mem_append.mp member with front | back
  · rcases List.mem_append.mp front with inner | between
    · exact mem_placed.mp inner
    · exact absurd rfl (even _ between).2.2
  · rcases List.mem_cons.mp back with here | after
    · exact absurd (Prod.mk.inj here).1 (by decide)
    · exact absurd before ((List.pairwise_cons.mp behind).1 _ after).asymm

/-- The outer braces have the same texts in front as in the whole window. -/
theorem frontOf_beforeLabel (inside : index < window.length)
    (member : place ∈ (braces (beforeLabel window index column)).opened) :
    frontOf (beforeLabel window index column) place = frontOf window place := by
  obtain ⟨row, there, brace⟩ := mem_placed.mp (Matching.mem_opened braces_apart member)
  have within : place.2 < row.length :=
    Nat.lt_of_lt_of_le (List.getElem?_eq_some_iff.mp brace).1 (codeOf_length_le row)
  have size : (window.take index).length = index := List.length_take_of_le inside.le
  have kept : (trimRight ((window.getD index []).take column)).dropLast <+: window.getD index [] :=
    ((List.dropLast_prefix _).trans (trimRight_isPrefix _)).trans (List.take_prefix ..)
  unfold beforeLabel at there
  rcases Nat.lt_trichotomy place.1 index with above | here | below
  · have short : place.1 < (window.take index).length := size.symm ▸ above
    have rows : (beforeLabel window index column).getD place.1 [] = window.getD place.1 [] := by
      rw [List.getD_eq_getElem?_getD, List.getD_eq_getElem?_getD, getElem?_beforeLabel above inside]
    have upper : (beforeLabel window index column).take place.1 = window.take place.1 := by
      rw [beforeLabel, List.take_append_of_le_length short.le, List.take_take, Nat.min_eq_left above.le]
    rw [frontOf, frontOf, introduction, introduction, rows, upper]
  · rw [here, List.getElem?_append_right size.le, size, Nat.sub_self, List.getElem?_cons_zero, Option.some_inj] at there
    have rows : ((beforeLabel window index column).getD index []).take place.2 =
        (window.getD index []).take place.2 := by
      rw [beforeLabel, List.getD_eq_getElem?_getD, List.getElem?_append_right size.le, size, Nat.sub_self,
        List.getElem?_cons_zero, Option.getD_some]
      obtain ⟨more, whole⟩ := kept
      exact (List.take_append_of_le_length (there ▸ within.le)).symm.trans (congrArg (List.take place.2) whole)
    have upper : (beforeLabel window index column).take index = window.take index := by
      rw [beforeLabel, List.take_left' size]
    rw [frontOf, frontOf, here, introduction, introduction, rows, upper]
  · rw [List.getElem?_eq_none (by rw [List.length_append, size]; exact below)] at there
    cases there

/-- The scan comes to an outer brace from the labelled one exactly if it does so from the end of the window. -/
theorem reached_beforeLabel (found : unmatchedBrace window = some (index, column))
    (bare : isBareDefault (introduction window index column) = true) :
    Reached (beforeLabel window index column) place ↔ Reached window place := by
  have ends := (outer_beforeLabel found bare).2
  obtain ⟨innermost, free⟩ := unmatchedBrace_eq_some_iff.mp found
  have brace := mem_placed.mp (Matching.mem_opened braces_apart (List.mem_of_head? innermost))
  constructor
  · intro reached semicolon behind stops
    have apart : semicolon ≠ (index, column) := by
      rintro rfl
      exact absurd (stops.1.unique brace) (by decide)
    have before := (before_or_before apart).resolve_right fun after => free semicolon after stops
    have seen := seenAt_beforeLabel found bare stops.1 before
    exact reached semicolon behind ((ends semicolon seen).mp stops)
  · intro reached semicolon behind stops
    exact reached semicolon behind ((ends semicolon stops.1).mpr stops)

theorem Asks.shorter (asks : Asks window inner) : inner.flatten.length < window.flatten.length := by
  obtain ⟨index, column, found, -, rfl⟩ := asks
  exact beforeLabel_shorter found

/-- A labelled brace is passed over: the first of the outer braces without a bare label is left to decide. -/
theorem deciding?_beforeLabel (found : unmatchedBrace window = some (index, column))
    (bare : isBareDefault (introduction window index column) = true) :
    deciding? (beforeLabel window index column) = deciding? window := by
  have inside := unmatchedBrace_lt found
  have skipped : ¬ IsUnlabelled window (index, column) = true := by simp [IsUnlabelled, frontOf, bare]
  rw [deciding?, deciding?, (outer_beforeLabel found bare).1, List.find?_cons_of_neg skipped]
  exact List.find?_congr fun place member => by
    rw [IsUnlabelled, frontOf_beforeLabel inside member, IsUnlabelled]

/-- An object literal is open exactly if the scan comes to the deciding brace and the text in front of it introduces
an object. By induction on the characters left to read. -/
theorem isOpen_iff (window : List Text) :
    isOpen window = true ↔ ∃ place, deciding? window = some place ∧ Reached window place ∧
      isCaseLabel (frontOf window place) = false ∧ endsWithAny (frontOf window place) introducers = true := by
  induction size : window.flatten.length using Nat.strong_induction_on generalizing window with
  | _ size ih =>
    cases found : unmatchedBrace window with
    | none =>
      rw [isOpen_of_none found]
      constructor
      · nofun
      · rintro ⟨place, decides, reached, -⟩
        have some := isSome_of_mem_opened (List.mem_of_find?_eq_some decides) reached
        rw [found] at some
        cases some
    | some innermost =>
      obtain ⟨index, column⟩ := innermost
      obtain ⟨top, free⟩ := unmatchedBrace_eq_some_iff.mp found
      rw [isOpen_of_brace found]
      cases bare : isBareDefault (introduction window index column) with
      | true =>
        have inside := unmatchedBrace_lt found
        rw [if_pos (isCaseLabel_of_isBareDefault bare), Bool.true_and,
          ih _ (size ▸ beforeLabel_shorter found) _ rfl, deciding?_beforeLabel found bare]
        refine exists_congr fun place => and_congr_right fun decides => ?_
        have member := List.mem_of_find?_eq_some ((deciding?_beforeLabel found bare).trans decides)
        rw [reached_beforeLabel found bare, frontOf_beforeLabel inside member]
      | false =>
        have decides : deciding? window = some (index, column) := by
          obtain ⟨outer, opened⟩ := List.head?_eq_some_iff.mp top
          rw [deciding?, opened, List.find?_cons_of_pos (by simp [IsUnlabelled, frontOf, bare])]
        have reached : Reached window (index, column) := free
        rw [Bool.false_and]
        simp only [decides, Option.some_inj, exists_eq_left', frontOf]
        cases isCaseLabel (introduction window index column) with
        | true => simp
        | false => simp [reached]

/-- An object with a label above a brace, and in that one with a label on the brace's line. -/
def keyedLines (first : Text) : List Text :=
  ["const a = \x7b", first, "  default:", "  \x7b", "    default: \x7b", ""]

end InlineCompletion.ObjectLiteral
