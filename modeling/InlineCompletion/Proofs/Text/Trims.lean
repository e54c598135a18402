import Mathlib.Data.List.TakeWhile
import InlineCompletion.Proofs.Text.Names

/-!
What trimming leaves of a text, and of two texts in a row: the outer text is trimmed, unless nothing of it can be
seen. Trimmed text has no white space around it, and to trim it again changes nothing.
-/

namespace InlineCompletion.Text

variable {text front tail : Text}

/-- What does not begin with a class is kept with all that follows. -/
theorem dropWhile_append_of_stops {p : Char → Bool} (stops : ∀ c ∈ tail.head?, p c = false) (front : Text) :
    (front ++ tail).dropWhile p = front.dropWhile p ++ tail := by
  have kept : tail.dropWhile p = tail := by
    cases tail with
    | nil => rfl
    | cons c more => simp [stops c rfl]
  rw [List.dropWhile_append, kept]
  split
  · next spent => rw [List.isEmpty_iff.mp spent, List.nil_append]
  · rfl

/-- What is read of a class does not go on in what does not begin with it. -/
theorem takeWhile_append_of_stops {p : Char → Bool} (stops : ∀ c ∈ tail.head?, p c = false) (front : Text) :
    (front ++ tail).takeWhile p = front.takeWhile p := by
  have none : tail.takeWhile p = [] := by
    cases tail with
    | nil => rfl
    | cons c more => simp [stops c rfl]
  rw [List.takeWhile_append, none, List.append_nil]
  split
  · next whole => exact ((List.takeWhile_prefix p).eq_of_length whole).symm
  · rfl

/-- A run of a class ends where something else stands. -/
theorem dropWhile_append_eq {p : Char → Bool} {run rest : Text} (all : ∀ c ∈ run, p c = true)
    (stops : ∀ c ∈ rest.head?, p c = false) : (run ++ rest).dropWhile p = rest := by
  rw [dropWhile_append_of_stops stops, List.dropWhile_eq_nil_iff.mpr all, List.nil_append]

/-- A text with white space at its end begins with what is left of it. -/
theorem trimRight_isPrefix (text : Text) : trimRight text <+: text := by
  obtain ⟨dropped, same, -⟩ := dropTrailing_append isBlank text
  exact ⟨dropped, same.symm⟩

/-- The white space at the end of a text is that of its tail, if this can be seen. -/
theorem trimRight_append (visible : allBlank tail = false) : trimRight (front ++ tail) = front ++ trimRight tail := by
  have remains : tail.reverse.dropWhile isBlank ≠ [] := by
    intro none
    have blank : allBlank tail = true := by simpa [allBlank] using List.dropWhile_eq_nil_iff.mp none
    simp [blank] at visible
  simp [trimRight, dropTrailing, List.reverse_append, List.dropWhile_append, remains]

theorem trimRight_append_blank (blank : allBlank tail = true) : trimRight (front ++ tail) = trimRight front := by
  have gone : tail.reverse.dropWhile isBlank = [] := by
    simpa [allBlank] using blank
  simp [trimRight, dropTrailing, List.reverse_append, List.dropWhile_append, gone]

theorem allBlank_trimRight (text : Text) : allBlank (trimRight text) = allBlank text := by
  obtain ⟨white, same, blank⟩ := dropTrailing_append isBlank text
  have same : text = trimRight text ++ white := same
  conv_rhs => rw [same]
  simp [allBlank, List.all_append, List.all_eq_true.mpr blank]

theorem exists_cons_trimLeft {text : Text} (visible : allBlank text = false) :
    ∃ first rest, trimLeft text = first :: rest ∧ isBlank first = false := by
  cases remains : trimLeft text with
  | nil =>
    have blank : allBlank text = true := by
      simpa [allBlank] using List.dropWhile_eq_nil_iff.mp remains
    simp [blank] at visible
  | cons first rest =>
    have solid := List.head?_dropWhile_not isBlank text
    rw [show text.dropWhile isBlank = _ from remains] at solid
    exact ⟨first, rest, rfl, by simpa using solid⟩

theorem trimLeft_append {front : Text} (visible : allBlank front = false) (tail : Text) :
    trimLeft (front ++ tail) = trimLeft front ++ tail := by
  obtain ⟨first, rest, remains, -⟩ := exists_cons_trimLeft visible
  have remains : front.dropWhile isBlank = first :: rest := remains
  simp [trimLeft, List.dropWhile_append, remains]

/-- Trimming on the right spares a character at the start that is no white space. -/
theorem trimRight_cons {first : Char} (solid : isBlank first = false) (rest : Text) :
    ∃ more, trimRight (first :: rest) = first :: more := by
  have alone : trimRight [first] = [first] := dropTrailing_eq (by simp [solid])
  rw [← List.singleton_append]
  by_cases blank : allBlank rest = true
  · exact ⟨[], by rw [trimRight_append_blank blank, alone]⟩
  · exact ⟨trimRight rest, by rw [trimRight_append (Bool.eq_false_iff.mpr blank), List.singleton_append]⟩

/-! Trimmed text. -/

theorem head?_trimLeft (text : Text) : ∀ c ∈ (trimLeft text).head?, isBlank c = false := by
  intro c member
  have given := List.head?_dropWhile_not isBlank text
  rw [show (text.dropWhile isBlank).head? = some c from member] at given
  simpa using given

/-- A front of a text begins as that does. -/
theorem forall_head?_of_isPrefix {p : Char → Prop} (isFront : front <+: text) (all : ∀ c ∈ text.head?, p c) :
    ∀ c ∈ front.head?, p c := by
  obtain ⟨rest, rfl⟩ := isFront
  intro c member
  exact all c (by rw [List.head?_append, Option.mem_def.mp member]; rfl)

/-- No white space stands around it. -/
structure IsTrimmed (text : Text) : Prop where
  first : ∀ c ∈ text.head?, isBlank c = false
  last : ∀ c ∈ text.getLast?, isBlank c = false

theorem IsTrimmed.trim_eq (trimmed : text.IsTrimmed) : trim text = text := by
  unfold trim
  rw [trimLeft_eq trimmed.first]
  exact dropTrailing_eq trimmed.last

theorem isTrimmed_trimRight (first : ∀ c ∈ text.head?, isBlank c = false) : (trimRight text).IsTrimmed where
  first := forall_head?_of_isPrefix (trimRight_isPrefix text) first
  last := getLast?_dropTrailing isBlank text

theorem isTrimmed_trim (text : Text) : (trim text).IsTrimmed :=
  isTrimmed_trimRight (head?_trimLeft text)

theorem trim_trim (text : Text) : trim (trim text) = trim text :=
  (isTrimmed_trim text).trim_eq

/-- Only white space is trimmed. -/
theorem exists_trim (text : Text) : ∃ lead tail, text = lead ++ (trim text ++ tail) ∧
    (∀ c ∈ lead, isBlank c = true) ∧ ∀ c ∈ tail, isBlank c = true := by
  obtain ⟨tail, whole, blank⟩ := dropTrailing_append isBlank (trimLeft text)
  refine ⟨indentation text, tail, ?_, List.all_eq_true.mp List.all_takeWhile, blank⟩
  rw [show trim text ++ tail = trimLeft text from whole.symm, indentation_append_trimLeft]

theorem trim_isInfix (text : Text) : trim text <:+: text := by
  obtain ⟨lead, tail, whole, -⟩ := exists_trim text
  exact ⟨lead, tail, by rw [List.append_assoc]; exact whole.symm⟩

end InlineCompletion.Text
