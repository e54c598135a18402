/-!
Comparisons of binary64 numbers. Two numbers are ordered unless one of them is not a number, so the opposite of a
comparison is the other comparison or the lack of a number.
-/

namespace InlineCompletion

open Float.Model UnpackedFloat

/-- Two numbers compare the other way round if they are exchanged. -/
theorem compare_swap (a b : UnpackedFloat) : b.compare a = (a.compare b).map Ordering.swap := by
  have finite (p q : Nat × Int) : (compare p.2 q.2).then (compare p.1 q.1) =
      ((compare q.2 p.2).then (compare q.1 p.1)).swap := by
    rw [Ordering.swap_then, ← Std.OrientedOrd.eq_swap, ← Std.OrientedOrd.eq_swap]
  rcases a with s | _ | s | ⟨s, m, e, _⟩ <;> rcases b with s' | _ | s' | ⟨s', m', e', _⟩ <;>
    (try cases s) <;> (try cases s')
  -- Only finite numbers of one sign are compared by what they hold.
  case finite.finite.negative.negative => exact congrArg (some ∘ Ordering.swap) (finite (m', e') (m, e))
  case finite.finite.positive.positive => exact congrArg some (finite (m', e') (m, e))
  all_goals rfl

theorem isNone_compare (a b : UnpackedFloat) : (a.compare b).isNone = (a.isNaN || b.isNaN) := by
  rcases a with s | _ | s | ⟨s, _, _, _⟩ <;> rcases b with s' | _ | s' | ⟨s', _, _, _⟩ <;>
    (try cases s) <;> (try cases s') <;> rfl

theorem compare_eq_none_iff (a b : UnpackedFloat) :
    a.compare b = none ↔ a.isNaN = true ∨ b.isNaN = true := by
  rw [← Option.isNone_iff_eq_none, isNone_compare, Bool.or_eq_true]

variable (a b : Float)

theorem lt_iff_compare : a < b ↔ a.toModel.unpack.compare b.toModel.unpack = some .lt := by
  show decide (a.toModel < b.toModel) = true ↔ _
  rw [decide_eq_true_iff]
  show UnpackedFloat.lt _ _ = true ↔ _
  rw [UnpackedFloat.lt, beq_iff_eq]

theorem le_iff_compare : a ≤ b ↔ (a.toModel.unpack.compare b.toModel.unpack).any (·.isLE) = true := by
  show decide (a.toModel ≤ b.toModel) = true ↔ _
  rw [decide_eq_true_iff]
  rfl

theorem isNaN_or_iff_compare :
    a.isNaN ∨ b.isNaN ↔ a.toModel.unpack.compare b.toModel.unpack = none :=
  (compare_eq_none_iff a.toModel.unpack b.toModel.unpack).symm

/-- What does not exceed a bound is at most the bound, unless one of the two is not a number. -/
theorem not_exceeds_iff : ¬a > b ↔ a ≤ b ∨ a.isNaN ∨ b.isNaN := by
  show ¬b < a ↔ _
  rw [lt_iff_compare, le_iff_compare, isNaN_or_iff_compare, compare_swap a.toModel.unpack]
  rcases a.toModel.unpack.compare b.toModel.unpack with _ | _ | _ | _ <;> simp

/-- What is not at most a bound exceeds it, unless one of the two is not a number. -/
theorem not_le_iff_exceeds : ¬a ≤ b ↔ b < a ∨ a.isNaN ∨ b.isNaN := by
  rw [lt_iff_compare, le_iff_compare, isNaN_or_iff_compare, compare_swap a.toModel.unpack]
  rcases a.toModel.unpack.compare b.toModel.unpack with _ | _ | _ | _ <;> simp

end InlineCompletion
