import InlineCompletion.Cache.Basic

/-!
Which keys a cache has. Looking an entry up only makes it the most recent one, and what was stored
last is never the entry that is dropped.
-/

namespace InlineCompletion.Cache

variable {τ : Type} (cache : Cache τ) (key : Text)

theorem has_iff : cache.has key = true ↔ ∃ entry, (key, entry) ∈ cache.entries := by
  simp [has, keys]

theorem mem_touch (entry : CacheEntry τ) (kept : Text × CacheEntry τ) :
    kept ∈ cache.touch key entry ↔ (kept ∈ cache.entries ∧ kept.1 ≠ key) ∨ kept = (key, entry) := by
  simp [touch, without]

/-- The entry found under a key is in the cache. -/
theorem mem_of_find {entry : CacheEntry τ} (found : cache.find key = some entry) :
    (key, entry) ∈ cache.entries := by
  unfold find at found
  obtain ⟨before, after, same, -⟩ := List.lookup_eq_some_iff.mp found
  rw [same]
  exact List.mem_append_right _ (List.mem_cons_self ..)

theorem has_get [Clock τ] (now : τ) (other : Text) :
    (cache.get key now).2.has other = cache.has other := by
  unfold get
  split
  · rfl
  · next entry found =>
    split
    · rfl
    · rw [Bool.eq_iff_iff, has_iff, has_iff]
      simp only [mem_touch]
      constructor
      · intro given
        rcases given with ⟨kept, ⟨member, -⟩ | same⟩
        · exact ⟨kept, member⟩
        · cases same
          exact ⟨entry, mem_of_find cache key found⟩
      · intro given
        obtain ⟨kept, member⟩ := given
        by_cases same : other = key
        · exact ⟨entry, Or.inr (by rw [same])⟩
        · exact ⟨kept, Or.inl ⟨member, same⟩⟩

@[simp] theorem capacity_get [Clock τ] (now : τ) : (cache.get key now).2.capacity = cache.capacity := by
  unfold get
  split
  · rfl
  · split <;> rfl

theorem has_of_get [Clock τ] (now : τ) {entry : CacheEntry τ}
    (hit : (cache.get key now).1 = some entry) : cache.has key = true := by
  unfold get at hit
  split at hit
  · cases hit
  · next kept found => exact (has_iff cache key).mpr ⟨kept, mem_of_find cache key found⟩

theorem has_put_self (room : 0 < cache.capacity) (now : τ) (completion typed : Text) :
    (cache.put key now completion typed).has key = true := by
  refine (has_iff _ key).mpr ⟨stamped now completion typed, ?_⟩
  show (key, stamped now completion typed) ∈ (without key cache.entries ++
    [(key, stamped now completion typed)]).drop _
  rw [List.drop_append_of_le_length]
  · exact List.mem_append_right _ (List.mem_singleton_self _)
  · simp only [touch, List.length_append, List.length_singleton]
    omega

theorem has_of_has_put (now : τ) (completion typed : Text) {other : Text}
    (there : (cache.put key now completion typed).has other = true) :
    other = key ∨ cache.has other = true := by
  obtain ⟨entry, member⟩ := (has_iff _ other).mp there
  have member : (other, entry) ∈ cache.touch key (stamped now completion typed) :=
    List.mem_of_mem_drop member
  rcases (mem_touch cache key _ _).mp member with ⟨before, -⟩ | new
  · exact Or.inr ((has_iff cache other).mpr ⟨entry, before⟩)
  · exact Or.inl (congrArg Prod.fst new)

end InlineCompletion.Cache
