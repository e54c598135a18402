import InlineCompletion.Proofs.Scan.Marks
import InlineCompletion.Proofs.Symbol.Keys
import InlineCompletion.Proofs.Text.Places
import InlineCompletion.Symbol.Import

/-!
Declarations: one of some words, white space and a name. A search from left to right finds each of them, except for one
whose word it has already read as a part of the name of another declaration.
-/

namespace InlineCompletion

open Pattern Text

namespace Variable

variable {p : Pattern (Cursor × Cursor)} {part : Char → Bool} {front rest word code : Text} {ends : Cursor × Cursor}
  {last : Cursor}

/-- What a search captures is what the preferred match at a place of the code does. -/
theorem exists_prefers_of_mem_captures (passing : Passing p) (member : word ∈ captures p code) :
    ∃ place ends last, place.text = code ∧ Prefers p place ends last ∧ ends.1.between ends.2 = word := by
  obtain ⟨found, there, rfl⟩ := List.mem_map.mp member
  obtain ⟨here, whole⟩ := mem_findAll passing there
  obtain ⟨⟨ends, last⟩, preferred, same⟩ := Option.map_eq_some_iff.mp here
  exact ⟨found.first, ends, last, whole, preferred, by rw [← same]⟩

/-- A search captures what the preferred match at a place does, where no character that matches read stands on the left. -/
theorem mem_captures_of_prefers (only : PassesOnly part p) (preferred : Prefers p ⟨front.reverse, rest⟩ ends last)
    (left : ∀ c ∈ front.getLast?, part c = false) (same : ends.1.between ends.2 = word) :
    word ∈ captures p (front ++ rest) :=
  List.mem_map.mpr ⟨_, only.finds preferred left, same⟩

end Variable

/-- One of the words, by itself, and a name behind it. -/
def declares (words : List Text) : Pattern (Cursor × Cursor) := do
  wordEdge
  oneOfWords words
  someBlanks
  captured name

/-- Words that are made of characters of words only. -/
def AreWords (words : List Text) : Prop :=
  ∀ word ∈ words, word ≠ [] ∧ ∀ c ∈ word, isWordChar c = true

instance : DecidablePred AreWords := fun words =>
  decidable_of_iff ((words.all fun word => !word.isEmpty && word.all isWordChar) = true) (by simp [AreWords])

structure Declaration where
  word : Text
  gap : Text
  name : Text
  spaced : gap ≠ []
  blank : ∀ c ∈ gap, isBlank c = true
  named : name.IsIdentifier

namespace Declaration

variable {words : List Text} {d e : Declaration} {place : Cursor} {rest rest' : Text}

def text (d : Declaration) : Text :=
  d.word ++ (d.gap ++ d.name)

/-- The declaration is written at the place, with the rest behind it: neither its word nor its name is a part of a longer
one. -/
structure At (d : Declaration) (words : List Text) (place : Cursor) (rest : Text) : Prop where
  word : d.word ∈ words
  written : place.after = d.text ++ rest
  left : ∀ c ∈ place.before.head?, isWordChar c = false
  right : ∀ c ∈ rest.head?, isNameChar c = false

theorem head?_name (d : Declaration) (rest : Text) : ∀ c ∈ (d.name ++ rest).head?, isBlank c = false := fun c member =>
  not_isBlank_of_isNameChar (isNameChar_of_isNameStart (Property.head?_of_isIdentifier d.named rest c member))

theorem head?_gap (d : Declaration) (rest : Text) : ∀ c ∈ (d.gap ++ rest).head?, isBlank c = true := by
  obtain ⟨c, more, gap⟩ := List.exists_cons_of_ne_nil d.spaced
  intro c' member
  rw [gap] at member
  exact d.blank c' (gap ▸ (Option.mem_some.mp member ▸ List.mem_cons_self ..))

/-- What is written at a place is one declaration only. -/
theorem At.unique (solid : AreWords words) (here : d.At words place rest) (there : e.At words place rest') : d = e := by
  have same : d.word ++ (d.gap ++ (d.name ++ rest)) = e.word ++ (e.gap ++ (e.name ++ rest')) := by
    simpa [text] using here.written.symm.trans there.written
  have behind_word {d : Declaration} {rest : Text} (member : d.word ∈ words) :
      (d.word ++ (d.gap ++ rest)).dropWhile (!isBlank ·) = d.gap ++ rest := by
    refine dropWhile_append_eq (fun c inside => ?_) fun c first => by simp [d.head?_gap rest c first]
    simp [not_isBlank_of_isNameChar (isNameChar_of_isWordChar ((solid _ member).2 c inside))]
  have gaps := congrArg (List.dropWhile (!isBlank ·)) same
  rw [behind_word here.word, behind_word there.word] at gaps
  have names := congrArg (List.dropWhile isBlank) gaps
  rw [dropWhile_append_eq d.blank (d.head?_name rest), dropWhile_append_eq e.blank (e.head?_name rest')] at names
  have rests := congrArg (List.dropWhile isNameChar) names
  rw [dropWhile_append_eq d.named.all here.right, dropWhile_append_eq e.named.all there.right] at rests
  have word : d.word = e.word := List.append_cancel_right (gaps ▸ same)
  have gap : d.gap = e.gap := List.append_cancel_right (names ▸ gaps)
  have name : d.name = e.name := List.append_cancel_right (rests ▸ names)
  obtain ⟨_, _, _, _, _, _⟩ := d
  obtain ⟨_, _, _, _, _, _⟩ := e
  cases word
  cases gap
  cases name
  rfl

theorem At.standsIn (here : d.At words place rest) : StandsIn isNameChar d.name place.text := by
  refine ⟨place.before.reverse ++ (d.word ++ d.gap), rest, ?_, fun c last => ?_, here.right⟩
  · simp [Cursor.text, here.written, text]
  · rw [← List.append_assoc, List.getLast?_append_of_ne_nil _ d.spaced] at last
    exact Property.isBlank_unnamed (d.blank c (List.mem_of_getLast? last))

end Declaration

open Declaration

variable {words : List Text} {d : Declaration} {place : Cursor} {rest code : Text} {found : Match (Cursor × Cursor)}

theorem passing_declares (words : List Text) : Passing (declares words) :=
  (passing_place _).bind fun _ => (passing_oneOfWords _).bind fun _ => (passing_many1 _).bind fun _ =>
    passing_captured passing_name

theorem moves_declares (words : List Text) : Moves (declares words) :=
  (forward_place _).bind_moves fun _ => (forward_oneOfWords _).bind_moves fun _ => forward_someBlanks.bind_moves fun _ =>
    moves_name.captured

theorem exists_declaration (solid : AreWords words) (here : matchAt (declares words) place = some found) :
    ∃ d rest, Declaration.At d words place rest ∧ found.value.1.between found.value.2 = d.name ∧
      place.Passes d.text found.last := by
  obtain ⟨pair, preferred, rfl⟩ := Option.map_eq_some_iff.mp here
  have whole := passing_declares words place pair (List.mem_of_head? preferred)
  obtain ⟨_, first, edge, preferred⟩ := Prefers.of_bind preferred
  obtain ⟨_, second, member, preferred⟩ := preferred.of_bind
  obtain ⟨_, third, blanks, preferred⟩ := preferred.of_bind
  obtain ⟨read, value⟩ := Prefers.of_captured preferred
  obtain ⟨edge, same⟩ := holds_of_mem_place edge
  obtain rfl : first = place := same
  obtain ⟨_, given, member⟩ := List.mem_flatMap.mp member
  obtain ⟨word, listed, rfl⟩ := List.mem_map.mp given
  obtain ⟨gap, spaced, blank, reads'⟩ := reads_many1 blanks
  obtain ⟨name, named, reads'', right⟩ := read.of_name
  have reads := reads_literal member
  let d : Declaration := ⟨word, gap, name, spaced, blank, named⟩
  have written : first.after = d.text ++ pair.2.after := reads.trans (reads'.trans reads'')
  refine ⟨d, pair.2.after, ⟨listed, written, fun c left => ?_, right⟩, ?_, ?_⟩
  · -- In front of the word there is an edge, so that no character of words is on its left.
    obtain ⟨before, after⟩ := first
    obtain rfl : after = word ++ (gap ++ (name ++ pair.2.after)) := by simpa [d, Declaration.text] using written
    exact (edge_front_iff (solid word listed).1 (solid word listed).2 ..).mp edge c left
  · rw [value]
    exact reads''.between_eq
  · obtain ⟨read, passes⟩ := whole
    have same : read = d.text := List.append_cancel_right (passes.1.symm.trans written)
    exact same ▸ passes

theorem Declaration.At.matchAt (solid : AreWords words) (here : d.At words place rest) :
    ∃ found, matchAt (declares words) place = some found ∧ found.value.1.between found.value.2 = d.name ∧
      place.Passes d.text found.last := by
  have possible : declares words place ≠ [] := by
    obtain ⟨before, after⟩ := place
    obtain rfl : after = d.word ++ (d.gap ++ (d.name ++ rest)) := by simpa [Declaration.text] using here.written
    obtain ⟨c, more, gap⟩ := List.exists_cons_of_ne_nil d.spaced
    have edge : Prefers wordEdge ⟨before, d.word ++ (d.gap ++ (d.name ++ rest))⟩ ()
        ⟨before, d.word ++ (d.gap ++ (d.name ++ rest))⟩ :=
      prefers_place ((edge_front_iff (solid _ here.word).1 (solid _ here.word).2 ..).mpr here.left)
    have blanks (before : Text) : Prefers someBlanks ⟨before, d.gap ++ (d.name ++ rest)⟩ ()
        ⟨d.gap.reverse ++ before, d.name ++ rest⟩ := by
      have blank := d.blank
      rw [gap] at blank ⊢
      have run := prefers_many (fun c member => blank c (List.mem_cons_of_mem _ member)) (d.head?_name rest) (c :: before)
      rw [List.reverse_cons, List.append_assoc]
      exact (prefers_char (blank c (List.mem_cons_self ..)) before _).bind run
    have word : ((), (⟨d.word.reverse ++ before, d.gap ++ (d.name ++ rest)⟩ : Cursor)) ∈
        oneOfWords words ⟨before, d.word ++ (d.gap ++ (d.name ++ rest))⟩ :=
      List.mem_flatMap.mpr ⟨_, List.mem_map_of_mem here.word, mem_literal ..⟩
    have read (before : Text) := (Property.prefers_name d.named here.right before).captured
    exact List.ne_nil_of_mem <| mem_bind_of_mem (List.mem_of_head? edge) <| mem_bind_of_mem word <|
      mem_bind_of_mem (List.mem_of_head? (blanks _)) (List.mem_of_head? (read _))
  cases there : Pattern.matchAt (declares words) place with
  | none => exact absurd (matchAt_eq_none_iff.mp there) possible
  | some found =>
    obtain ⟨e, rest', at', name, passes⟩ := exists_declaration solid there
    cases here.unique solid at'
    exact ⟨found, rfl, name, passes⟩

/-! What a search finds. -/

/-- The declaration begins in the code at the column. -/
def Declaration.In (d : Declaration) (words : List Text) (code : Text) (column : Nat) : Prop :=
  ∃ place rest, place.text = code ∧ place.column = column ∧ Declaration.At d words place rest

/-- At the column a search is still in the name of a declaration that begins further left. -/
def InName (words : List Text) (code : Text) (column : Nat) : Prop :=
  ∃ d start, Declaration.In d words code start ∧ start + (d.word ++ d.gap).length ≤ column ∧
    column < start + d.text.length

/-- The names that a search reads are those of declarations. -/
theorem exists_of_mem_captures (solid : AreWords words) {name : Text}
    (member : name ∈ Variable.captures (declares words) code) :
    ∃ d column, Declaration.In d words code column ∧ d.name = name := by
  obtain ⟨found, there, rfl⟩ := List.mem_map.mp member
  obtain ⟨here, whole⟩ := mem_findAll (passing_declares words) there
  obtain ⟨d, rest, at', same, -⟩ := exists_declaration solid here
  exact ⟨d, _, ⟨found.first, rest, whole, rfl, at'⟩, same.symm⟩

/-- A declaration whose word stands inside of another one stands in the name of that. -/
theorem Declaration.At.inside_name (solid : AreWords words) {e : Declaration} {start : Cursor} {rest' read : Text}
    (here : d.At words place rest) (there : e.At words start rest') (passes : start.Passes read place) (some : read ≠ [])
    (within : read.length < e.text.length) : (e.word ++ e.gap).length ≤ read.length := by
  obtain ⟨tail, split⟩ := List.prefix_of_prefix_length_le ⟨place.after, passes.1.symm⟩ ⟨rest', there.written.symm⟩
    (Nat.le_of_lt within)
  have behind : place.after = tail ++ rest' := by
    have both := passes.1.symm.trans there.written
    rw [← split, List.append_assoc] at both
    exact List.append_cancel_left both
  obtain ⟨c, tail, rfl⟩ := List.exists_cons_of_ne_nil (l := tail) (by rintro rfl; simp [← split] at within)
  have begins : isWordChar c = true := by
    obtain ⟨d', more, word⟩ := List.exists_cons_of_ne_nil (solid _ here.word).1
    have written := behind.symm.trans here.written
    rw [Declaration.text, word] at written
    obtain ⟨rfl, -⟩ := List.cons_eq_cons.mp written
    exact (solid _ here.word).2 c (word ▸ List.mem_cons_self ..)
  have last : isWordChar (read.getLast some) = false := by
    refine here.left _ ?_
    rw [passes.2, List.head?_append_of_ne_nil _ (by simpa using some), List.head?_reverse]
    exact List.getLast?_eq_some_getLast some
  -- Neither the word nor the white space of the other one can hold the first character of this word.
  rcases List.append_eq_append_iff.mp split with ⟨more, word, -⟩ | ⟨more, rfl, gap⟩
  · have inside := (solid _ there.word).2 (read.getLast some) (word ▸ List.mem_append_left _ (List.getLast_mem some))
    cases last.symm.trans inside
  · rcases List.append_eq_append_iff.mp gap with ⟨left, rfl, -⟩ | ⟨left, spaces, name⟩
    · simp
    · cases left with
      | nil => simp [spaces]
      | cons b left =>
        obtain ⟨rfl, -⟩ := List.cons_eq_cons.mp name
        have blank := e.blank c (spaces ▸ by simp)
        have solid := not_isBlank_of_isNameChar (isNameChar_of_isWordChar begins)
        cases blank.symm.trans solid

/-- A search from left to right reads a declaration, unless the word of that stands in the name of one further left. -/
theorem Declaration.In.mem_captures (solid : AreWords words) {column : Nat} (here : d.In words code column) :
    d.name ∈ Variable.captures (declares words) code ∨ InName words code column := by
  obtain ⟨place, rest, whole, rfl, here⟩ := here
  obtain ⟨found, there, name, -⟩ := here.matchAt solid
  have possible : declares words place ≠ [] := fun none => by
    cases (matchAt_eq_none_iff.mpr none).symm.trans there
  obtain ⟨other, member, before, behind⟩ := exists_covering (passing_declares words) (moves_declares words) possible whole
  obtain ⟨at', same⟩ := mem_findAll (passing_declares words) member
  obtain ⟨e, rest', stands, name', passes⟩ := exists_declaration solid at'
  rw [passes.column_eq] at behind
  obtain ⟨read, onward⟩ := Cursor.exists_passes (same.trans whole.symm) before
  rw [onward.column_eq] at behind
  by_cases none : read = []
  · subst none
    have start : place = other.first := Cursor.mk.injEq .. ▸ ⟨onward.2, onward.1.symm⟩
    subst start
    cases here.unique solid stands
    exact .inl (List.mem_map.mpr ⟨other, member, name'⟩)
  · have inside := here.inside_name solid stands onward none (by omega)
    refine .inr ⟨e, other.first.column, ⟨other.first, rest', same, rfl, stands⟩, ?_, ?_⟩ <;>
      rw [onward.column_eq] <;> omega

end InlineCompletion
