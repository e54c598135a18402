import InlineCompletion.Proofs.Reply.Lines
import InlineCompletion.Proofs.Symbol.Reach
import InlineCompletion.Proofs.Text.Trims

/-!
What is extracted from a reply: nothing, or one line with a new property. The value of the property is bare of
white space and of the commas at its end, unless white space stands between these commas.
-/

namespace InlineCompletion.ReplyProperty

open Pattern Text

variable {existing : List Text} {line name value given text : Text}

/-! The value. -/

theorem withoutCommas_append (given : Text) : ∃ dropped, given = withoutCommas given ++ dropped := by
  obtain ⟨last, whole, -⟩ := dropTrailing_append isBlank given
  obtain ⟨commas, trimmed, -⟩ := dropTrailing_append (· = ',') (trimRight given)
  obtain ⟨gap, bare, -⟩ := dropTrailing_append isBlank (dropTrailing (· = ',') (trimRight given))
  refine ⟨gap ++ commas ++ last, ?_⟩
  calc
    given = trimRight given ++ last := whole
    _ = dropTrailing (· = ',') (trimRight given) ++ commas ++ last := congrArg (· ++ last) trimmed
    _ = withoutCommas given ++ gap ++ commas ++ last := congrArg (· ++ commas ++ last) bare
    _ = withoutCommas given ++ (gap ++ commas ++ last) := by simp only [List.append_assoc]

theorem withoutCommas_subset (given : Text) : withoutCommas given ⊆ given := by
  obtain ⟨dropped, split⟩ := withoutCommas_append given
  intro c member
  rw [split]
  exact List.mem_append_left _ member

theorem trim_withoutCommas (first : ∀ c ∈ given.head?, isBlank c = false) :
    trim (withoutCommas given) = withoutCommas given := by
  have kept : ∀ c ∈ (withoutCommas given).head?, isBlank c = false := by
    obtain ⟨dropped, split⟩ := withoutCommas_append given
    intro c member
    refine first c ?_
    rw [split, List.head?_append, Option.mem_def.mp member]
    rfl
  unfold trim
  rw [trimLeft_eq kept]
  exact dropTrailing_eq (getLast?_dropTrailing isBlank _)

/-- A comma, white space and more commas at the end of a text, whatever white space follows. -/
def EndsInSpacedCommas (given : Text) : Prop :=
  ∃ front gap commas, trimRight given = front ++ ',' :: (gap ++ commas) ∧
    gap ≠ [] ∧ (∀ c ∈ gap, isBlank c = true) ∧ commas ≠ [] ∧ ∀ c ∈ commas, c = ','

theorem getLast?_append_gap (front : Text) {gap : Text} (spaced : gap ≠ []) :
    ∃ c ∈ gap, (front ++ gap).getLast? = some c :=
  ⟨gap.getLast spaced, List.getLast_mem spaced,
    (List.getLast?_append_of_ne_nil front spaced).trans (List.getLast?_eq_some_getLast spaced)⟩

/-- Only white space between them saves commas from being taken off. -/
theorem getLast?_withoutCommas (given : Text) :
    (withoutCommas given).getLast? = some ',' ↔ EndsInSpacedCommas given := by
  constructor
  · intro ends
    obtain ⟨front, bare⟩ := List.getLast?_eq_some_iff.mp ends
    obtain ⟨commas, trimmed, all⟩ := dropTrailing_append (· = ',') (trimRight given)
    obtain ⟨gap, apart, blank⟩ := dropTrailing_append isBlank (dropTrailing (· = ',') (trimRight given))
    have apart : dropTrailing (· = ',') (trimRight given) = front ++ [','] ++ gap := by
      rw [← bare]
      exact apart
    have spaced : gap ≠ [] := by
      rintro rfl
      have last := getLast?_dropTrailing (· = ',') (trimRight given) ','
      rw [apart] at last
      simp at last
    have whole : trimRight given = front ++ [','] ++ gap ++ commas := apart ▸ trimmed
    have more : commas ≠ [] := by
      rintro rfl
      obtain ⟨c, there, last⟩ := getLast?_append_gap (front ++ [',']) spaced
      have whole : dropTrailing isBlank given = front ++ [','] ++ gap := whole.trans (List.append_nil _)
      have solid := getLast?_dropTrailing isBlank given c (whole ▸ last)
      cases (blank c there).symm.trans solid
    refine ⟨front, gap, commas, ?_, spaced, blank, more, fun c member => of_decide_eq_true (all c member)⟩
    rw [whole]
    simp
  · rintro ⟨front, gap, commas, whole, spaced, blank, -, all⟩
    have outer : dropTrailing (· = ',') (trimRight given) = front ++ [','] ++ gap := by
      have whole : trimRight given = front ++ [','] ++ gap ++ commas := by simp [whole]
      rw [whole]
      refine dropTrailing_append_right (fun c member => ?_) fun c member => decide_eq_true (all c member)
      obtain ⟨d, there, last⟩ := getLast?_append_gap (front ++ [',']) spaced
      cases last.symm.trans member
      refine decide_eq_false ?_
      rintro rfl
      cases blank ',' there
    unfold withoutCommas
    rw [outer]
    have inner : trimRight (front ++ [','] ++ gap) = front ++ [','] := by
      refine dropTrailing_append_right (fun c member => ?_) blank
      have same : ',' = c := by simpa using member
      exact same ▸ rfl
    rw [inner, List.getLast?_concat]

/-! The line. -/

/-- What stands behind the first colon of a line and the white space after it. -/
def afterColon (line : Text) : Text :=
  trimLeft ((line.dropWhile (· ≠ ':')).drop 1)

theorem afterColon_eq {key rest : Text} (free : ':' ∉ key) : afterColon (key ++ ':' :: rest) = trimLeft rest := by
  have dropped : (key ++ ':' :: rest).dropWhile (· ≠ ':') = ':' :: rest := by
    refine (List.dropWhile_append_of_pos fun c member => decide_eq_true ?_).trans rfl
    rintro rfl
    exact free member
  unfold afterColon
  rw [dropped]
  rfl

theorem afterColon_subset (line : Text) : afterColon line ⊆ line := fun _ member =>
  (List.dropWhile_suffix _).subset (List.mem_of_mem_drop ((List.dropWhile_suffix _).subset member))

/-- Behind the first of its names a key has only further names, each after white space. -/
def IsFurther (piece : Text) : Prop :=
  ∃ gap word, piece = gap ++ word ∧ gap ≠ [] ∧ (∀ c ∈ gap, isBlank c = true) ∧ word.IsIdentifier

theorem IsFurther.head? {piece : Text} (further : IsFurther piece) (rest : Text) :
    ∀ c ∈ (piece ++ rest).head?, isBlank c = true := by
  obtain ⟨gap, word, rfl, spaced, blank, -⟩ := further
  obtain ⟨d, more, rfl⟩ := List.exists_cons_of_ne_nil spaced
  intro c member
  cases member
  exact blank d (List.mem_cons_self ..)

theorem IsFurther.not_colon {piece : Text} (further : IsFurther piece) : ':' ∉ piece := by
  obtain ⟨gap, word, rfl, -, blank, named⟩ := further
  intro member
  rcases List.mem_append.mp member with there | there
  · cases blank ':' there
  · cases named.all ':' there

theorem reads_further (cursor : Cursor) (found : Unit × Cursor)
    (member : found ∈ (someBlanks >>= fun _ => Pattern.name) cursor) :
    ∃ piece, IsFurther piece ∧ cursor.Reads piece found.2 := by
  obtain ⟨middle, spaced, word⟩ := (mem_bind _ _ _ _).mp member
  obtain ⟨gap, some, blank, reads⟩ := reads_many1 spaced
  obtain ⟨word, named, onward⟩ := reads_name word
  exact ⟨gap ++ word, ⟨gap, word, rfl, some, blank, named⟩, reads.trans onward⟩

/-- What is matched as names begins with a word, and its end stands before the first colon. -/
theorem reads_keyPattern {cursor last : Cursor} {names : Cursor × Cursor}
    (preferred : Prefers keyPattern cursor names last) :
    ∃ word more gap rest, names.1.between names.2 = word ++ more ∧ word.IsIdentifier ∧
      (∀ c ∈ more.head?, isBlank c = true) ∧ cursor.after = word ++ more ++ gap ++ ':' :: rest ∧
      ':' ∉ word ++ more ++ gap ∧ last.after = trimLeft rest := by
  obtain ⟨captured, afterNames, member, preferred⟩ := Prefers.of_bind preferred
  obtain ⟨_, behindNames, spaced, preferred⟩ := Prefers.of_bind preferred
  obtain ⟨_, behindColon, colon, preferred⟩ := Prefers.of_bind preferred
  obtain ⟨rfl, _, preferred⟩ := Prefers.of_bind_pure preferred
  obtain ⟨inner, same⟩ := mem_of_mem_captured member
  have same : names = (cursor, afterNames) := same
  obtain ⟨first, there, others⟩ := (mem_bind _ _ _ _).mp inner
  obtain ⟨word, named, begins⟩ := reads_name there
  obtain ⟨pieces, all, onward⟩ := reads_star reads_further others
  obtain ⟨gap, blank, spaces⟩ := reads_many spaced
  have between := (begins.trans onward).between_eq
  have rest := ((begins.trans onward).trans spaces).trans (reads_literal colon)
  refine ⟨word, pieces.flatten, gap, behindColon.after, same ▸ between, named, ?_, ?_, ?_,
    preferred.after_of_many⟩
  · cases pieces with
    | nil => exact fun _ member => by cases member
    | cons piece more => exact (all piece (List.mem_cons_self ..)).head? more.flatten
  · have whole : cursor.after = word ++ pieces.flatten ++ gap ++ [':'] ++ behindColon.after := rest
    rw [whole, List.append_assoc _ [':']]
    rfl
  · intro member
    rcases List.mem_append.mp member with names | there
    · rcases List.mem_append.mp names with there | there
      · cases named.all ':' there
      · obtain ⟨piece, given, there⟩ := List.mem_flatten.mp there
        exact (all piece given).not_colon there
    · cases blank ':' there

/-- A line gives the first of its names, and what stands behind its colon. -/
theorem of_split_eq_some (gives : split line = some (name, value)) :
    name.IsIdentifier ∧ value = withoutCommas (afterColon line) := by
  obtain ⟨found, matched, same⟩ := Option.map_eq_some_iff.mp gives
  obtain ⟨⟨names, last⟩, preferred, rfl⟩ := Option.map_eq_some_iff.mp matched
  obtain ⟨word, more, gap, rest, between, named, apart, whole, free, after⟩ := reads_keyPattern preferred
  have whole : line = word ++ more ++ gap ++ ':' :: rest := whole
  have some : word ≠ [] := by
    rintro rfl
    exact named
  have first := headD_words some (fun c member => not_isBlank_of_isNameChar (named.all c member)) apart
  obtain ⟨rfl, rfl⟩ := Prod.mk.inj same
  dsimp only
  rw [between, first, after, whole, afterColon_eq free]
  exact ⟨named, rfl⟩

/-! The property. -/

/-- A property that an object does not have yet, with a value that stands for itself. -/
structure NewProperty (existing : List Text) (name value : Text) : Prop where
  named : name.IsIdentifier
  fresh : name ∉ existing
  filled : value ≠ []
  inLine : '\n' ∉ value
  trimmed : trim value = value
  closed : ∀ c ∈ value.getLast?, c ∉ [Text.openBrace, '[', '(']

theorem forward_quotedKey : Forward quotedKey :=
  (forward_char _).bind fun _ => (forward_captured (forward_many1 _)).bind fun _ =>
    (forward_char _).bind fun _ => forward_blanks.bind fun _ =>
    (forward_literal _).bind fun _ => forward_pure _

/-- Bare keys have no line break that was not there before. -/
theorem not_mem_bareKeys {c : Char} (other : c ≠ ':') (absent : c ∉ line) : c ∉ bareKeys line := by
  intro member
  rcases mem_of_replaceAll forward_quotedKey member with there | ⟨found, matched, part, there⟩
  · exact absent there
  · rcases List.mem_append.mp there with key | colon
    · obtain ⟨⟨_, opened⟩, quote, rest⟩ := (mem_bind _ _ _ _).mp matched
      obtain ⟨names, captured, rest⟩ := (mem_bind _ _ _ _).mp rest
      obtain ⟨_, -, rest⟩ := (mem_bind _ _ _ _).mp rest
      obtain ⟨_, -, rest⟩ := (mem_bind _ _ _ _).mp rest
      obtain ⟨_, -, rest⟩ := (mem_bind _ _ _ _).mp rest
      have value : found.value = (opened, names.2) :=
        (congrArg Prod.fst (List.mem_singleton.mp rest)).trans (mem_of_mem_captured captured).2
      rw [value] at key
      have inside := (forward_char _ _ _ quote).subset ((List.take_sublist _ _).subset key)
      exact absent (part inside)
    · exact other (List.mem_singleton.mp colon)

/-- The property of a line is new, and its value is what stands behind the colon. -/
theorem of_ofLine_eq_some {result : Text} (free : '\n' ∉ line) (gives : ofLine existing line = some result) :
    ∃ name, NewProperty existing name (withoutCommas (afterColon (bareKeys line))) ∧
      result = property name (withoutCommas (afterColon (bareKeys line))) ++ [','] := by
  unfold ofLine at gives
  split at gives
  · cases gives
  split at gives
  · cases gives
  split at gives
  · cases gives
  next name value divides =>
  split at gives
  · next admissible =>
    obtain ⟨named, rfl⟩ := of_split_eq_some divides
    obtain ⟨filled, closed, fresh⟩ := isAdmissible_iff.mp admissible
    have inLine : '\n' ∉ withoutCommas (afterColon (bareKeys line)) := fun member =>
      not_mem_bareKeys (by decide) free (afterColon_subset _ (withoutCommas_subset _ member))
    refine ⟨name, ⟨named, fresh, filled, inLine, trim_withoutCommas (head?_trimLeft _), closed⟩, ?_⟩
    cases gives
    simp [property]
  · cases gives

/-- A line without its comment, the white space around it and the quotes of its keys. -/
def plainLine (line : Text) : Text :=
  bareKeys (trim (Scan.dropComment line))

/-- Whatever the text and the names are, what is extracted is nothing or a line with a new property; its value
ends with a comma only where white space and more commas followed that comma. -/
theorem extract_eq_nil_or_property (text : Text) (existing : List Text) :
    extract text existing = [] ∨
      ∃ line ∈ lines (unwrap text), ∃ name value, extract text existing = property name value ++ [','] ∧
        NewProperty existing name value ∧
        (value.getLast? = some ',' ↔ EndsInSpacedCommas (afterColon (plainLine line))) := by
  unfold extract
  cases first : (lines (unwrap text)).findSome? fun line => ofLine existing (trim (Scan.dropComment line)) with
  | none => exact .inl rfl
  | some result =>
    obtain ⟨line, member, gives⟩ := List.exists_of_findSome?_eq_some first
    have free : '\n' ∉ trim (Scan.dropComment line) := fun there =>
      not_mem_of_mem_splitOn member (Scan.dropComment_subset line (trim_subset _ there))
    obtain ⟨name, new, rfl⟩ := of_ofLine_eq_some free gives
    exact .inr ⟨line, member, name, _, rfl, new, getLast?_withoutCommas _⟩

/-- The comma that white space saves from being taken off. -/
example : extract "tags: 1, ,".toList [] = "tags: 1,,".toList := by decide +kernel

end InlineCompletion.ReplyProperty
