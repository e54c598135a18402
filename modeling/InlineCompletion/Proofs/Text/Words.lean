import InlineCompletion.Proofs.Text.Joins
import Mathlib.Data.List.Basic

/-!
Words that stand by themselves. A word of a piece is one of the whole text where the piece stands by itself, as the pieces
between separators do.
-/

namespace InlineCompletion.Text

/-- The word is written in the text, between characters that are not of the class. -/
def StandsIn (part : Char → Bool) (word text : Text) : Prop :=
  ∃ front rest, text = front ++ (word ++ rest) ∧ (∀ c ∈ front.getLast?, part c = false) ∧
    ∀ c ∈ rest.head?, part c = false

variable {part : Char → Bool} {word piece text : Text} {separator : Char}

theorem StandsIn.trans (inner : StandsIn part word piece) (outer : StandsIn part piece text) :
    StandsIn part word text := by
  obtain ⟨before, after, rfl, left, right⟩ := inner
  obtain ⟨front, rest, rfl, left', right'⟩ := outer
  refine ⟨front ++ before, after ++ rest, by simp, ?_, ?_⟩
  · cases before with
    | nil => rwa [List.append_nil]
    | cons c before => rwa [List.getLast?_append_of_ne_nil front (List.cons_ne_nil c before)]
  · cases after with
    | nil => exact right'
    | cons c after => exact right

/-- What joined pieces have in front of one of them and behind it. -/
theorem join_append_cons (before after : List Text) (piece : Text) :
    join [separator] (before ++ piece :: after) =
      before.flatMap (· ++ [separator]) ++ (piece ++ after.flatMap (separator :: ·)) := by
  induction before with
  | nil =>
    induction after generalizing piece with
    | nil => simp [join]
    | cons next after ih =>
      have ih := ih next
      simp only [List.nil_append, List.flatMap_nil] at ih ⊢
      rw [join, ih, List.flatMap_cons]
      · simp
      · exact List.cons_ne_nil _ _
  | cons first before ih =>
    rw [List.cons_append, join, ih]
    · simp
    · simp

/-- A piece between separators stands by itself, for every class without the separator. -/
theorem standsIn_of_mem_splitOn (apart : part separator = false) (member : piece ∈ splitOn separator text) :
    StandsIn part piece text := by
  obtain ⟨before, after, pieces⟩ := List.append_of_mem member
  have whole := join_splitOn separator text
  rw [pieces, join_append_cons] at whole
  refine ⟨_, _, whole.symm, fun c last => ?_, fun c first => ?_⟩
  · rcases List.eq_nil_or_concat before with rfl | ⟨before, last', rfl⟩
    · cases last
    · have same : separator = c := by simpa using last
      exact same ▸ apart
  · cases after with
    | nil => cases first
    | cons next after =>
      have same : separator = c := by simpa using first
      exact same ▸ apart

end InlineCompletion.Text
