import InlineCompletion.Reply.Overlap

/-!
What is inserted can be seen: whatever the model answered and wherever the cursor stands, the part of a
completion that is left to insert is never mere white space.
-/

namespace InlineCompletion

open Text

/-- Trimmed text that is blank is empty, since its last character is not blank. -/
theorem Text.trimRight_eq_nil {text : Text} (blank : allBlank (trimRight text) = true) :
    trimRight text = [] := by
  have kept : ∀ c ∈ text.reverse.dropWhile isBlank, isBlank c = true := by
    intro c member
    refine List.all_eq_true.mp blank c ?_
    exact List.mem_reverse.mpr member
  cases left : text.reverse.dropWhile isBlank with
  | nil => simp [trimRight, dropTrailing, left]
  | cons c rest =>
    have first := List.head_dropWhile_not isBlank (l := text.reverse) (by simp [left])
    simp only [left, List.head_cons] at first
    have blank' := kept c (left ▸ List.mem_cons_self ..)
    cases first.symm.trans blank'

namespace Overlap

/-! What is visible. -/

theorem someUnlessBlank_eq_some {text shown : Text} :
    someUnlessBlank text = some shown ↔ text = shown ∧ allBlank shown = false := by
  unfold someUnlessBlank
  split
  · next blank => exact iff_of_false nofun fun given => by simp [← given.1, blank] at given
  · next visible =>
    rw [Option.some_inj]
    exact (and_iff_left_of_imp fun same => same ▸ Bool.eq_false_iff.mpr visible).symm

theorem unique_eq_of_calm {facts : Classification} (calm : facts.isVolatile = false) (completion typed : Text) :
    unique completion typed facts =
      if allBlank completion = true then none else someUnlessBlank (remove completion typed) := by
  simp only [Classification.isVolatile, Bool.or_eq_false_iff] at calm
  simp [unique, calm]

theorem allBlank_append_right {before after : Text} (visible : allBlank after = false) :
    allBlank (before ++ after) = false := by
  simp only [allBlank, List.all_append, Bool.and_eq_false_iff] at visible ⊢
  exact Or.inr visible

/-- A property that is left stands on a line of its own, or it is what the echo leaves. -/
theorem allBlank_uniqueProperty {completion typed shown : Text}
    (given : uniqueProperty completion typed = some shown) : allBlank shown = false := by
  unfold uniqueProperty at given
  dsimp only at given
  split at given
  · cases given
  · next remains =>
    have visible : allBlank (trim (Pattern.eraseAll leadingDeclaration completion)) = false := by
      refine Bool.eq_false_iff.mpr fun blank => remains ?_
      rw [List.isEmpty_iff]
      exact trimRight_eq_nil blank
    split at given
    · cases given
      exact allBlank_append_right visible
    · split at given
      · cases given
        exact allBlank_append_right visible
      · exact (someUnlessBlank_eq_some.mp given).2

/-- What is left to insert is never blank. -/
theorem allBlank_unique {completion typed shown : Text} {facts : Classification}
    (given : unique completion typed facts = some shown) : allBlank shown = false := by
  unfold unique at given
  split at given
  · cases given
  · next visible =>
    split at given
    · cases given
      exact Bool.eq_false_iff.mpr visible
    · split at given
      · exact allBlank_uniqueProperty given
      · exact (someUnlessBlank_eq_some.mp given).2

/-! What is removed. -/

theorem dropEcho_suffix {body tail left : Text} (echo : dropEcho body tail = some left) : left <:+ body := by
  unfold dropEcho at echo
  split at echo
  · cases echo
    exact List.drop_suffix ..
  · dsimp only at echo
    split at echo
    · cases echo
      exact (List.dropWhile_suffix _).trans (List.drop_suffix ..)
    · cases echo

/-- What is left of a completion is all of it, or what an echo of the typed text leaves of it. -/
theorem remove_eq_or (completion typed : Text) : remove completion typed = completion ∨
    ∃ tail ∈ tokenTails none typed, dropEcho (trimLeft completion) tail = some (remove completion typed) := by
  unfold remove
  split
  · exact Or.inl rfl
  · cases found : (tokenTails none typed).findSome? (dropEcho (trimLeft completion)) with
    | none => exact Or.inl rfl
    | some left =>
      obtain ⟨tail, member, echo⟩ := List.exists_of_findSome?_eq_some found
      exact Or.inr ⟨tail, member, echo⟩

theorem remove_suffix (completion typed : Text) : remove completion typed <:+ completion := by
  rcases remove_eq_or completion typed with same | ⟨tail, -, echo⟩
  · exact ⟨[], same⟩
  · exact (dropEcho_suffix echo).trans (List.dropWhile_suffix _)

end Overlap

end InlineCompletion
