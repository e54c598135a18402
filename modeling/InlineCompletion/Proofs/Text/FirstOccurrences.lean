import InlineCompletion.Text.Basic
import Mathlib.Data.List.Induction

/-!
What is left of a list when only the first occurrence of every element is kept.
-/

namespace InlineCompletion

variable {α β : Type} [DecidableEq α] {xs : List α} {x : α}

theorem firstOccurrences_concat (xs : List α) (x : α) :
    firstOccurrences (xs ++ [x]) =
      if x ∈ firstOccurrences xs then firstOccurrences xs else firstOccurrences xs ++ [x] := by
  unfold firstOccurrences
  simp only [List.foldl_append, List.foldl_cons, List.foldl_nil, List.mem_reverse]
  split
  · rfl
  · rw [List.reverse_cons]

theorem mem_firstOccurrences : x ∈ firstOccurrences xs ↔ x ∈ xs := by
  induction xs using List.reverseRecOn with
  | nil => rfl
  | append_singleton xs last ih =>
    rw [firstOccurrences_concat, List.mem_append, List.mem_singleton]
    split
    · next there =>
      rw [ih]
      constructor
      · exact Or.inl
      · rintro (member | rfl)
        · exact member
        · exact ih.mp there
    · rw [List.mem_append, List.mem_singleton, ih]

theorem nodup_firstOccurrences (xs : List α) : (firstOccurrences xs).Nodup := by
  induction xs using List.reverseRecOn with
  | nil => exact List.nodup_nil
  | append_singleton xs last ih =>
    rw [firstOccurrences_concat]
    split
    · exact ih
    · next fresh => simpa [List.nodup_append, ih] using fun x member (same : x = last) => fresh (same ▸ member)

/-- Elements may be left out, as long as another one that stays and has the same image comes before each. -/
theorem firstOccurrences_map_filter {f : β → α} {stays : β → Bool} {ys : List β}
    (led : ∀ front y rest, ys = front ++ y :: rest → stays y = false → ∃ z ∈ front, stays z = true ∧ f z = f y) :
    firstOccurrences (ys.map f) = firstOccurrences ((ys.filter stays).map f) := by
  induction ys using List.reverseRecOn with
  | nil => rfl
  | append_singleton ys last ih =>
    have ih := ih fun front y rest split gone => led front y (rest ++ [last]) (by simp [split]) gone
    rw [List.map_append, List.map_singleton, firstOccurrences_concat, ih, List.filter_append]
    by_cases kept : stays last = true
    · rw [List.filter_cons_of_pos kept, List.filter_nil, List.map_append, List.map_singleton, firstOccurrences_concat]
    · obtain ⟨z, member, stay, same⟩ := led ys last [] rfl (by simpa using kept)
      have there : f last ∈ firstOccurrences ((ys.filter stays).map f) :=
        mem_firstOccurrences.mpr (List.mem_map.mpr ⟨z, List.mem_filter.mpr ⟨member, stay⟩, same⟩)
      rw [if_pos there, List.filter_cons_of_neg kept, List.filter_nil, List.append_nil]

end InlineCompletion
