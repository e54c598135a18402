import Mathlib.Data.List.Dedup
import Mathlib.Data.List.DropRight
import InlineCompletion.Proofs.Cache.Keys
import InlineCompletion.Proofs.Decimal.Comparisons

/-!
A cache forgets by recency and by age. Whatever is looked up, stored and cleared in it, its keys are the
ones touched last, from the least to the most recent, and a key reads as the entry stored last under it
for as long as that entry has not outlived the cache's time to live. A reading of the clock that is not a
number outlives nothing.
-/

namespace InlineCompletion

section Lists

variable {α : Type}

/-- The end of a list does not depend on what stands before enough of it. -/
theorem rtake_append_of_le {front back : List α} {n : Nat} (enough : n ≤ back.length) :
    (front ++ back).rtake n = back.rtake n := by
  rw [List.rtake, List.rtake, List.length_append, List.drop_append, List.drop_eq_nil_of_le (by omega),
    List.nil_append]
  congr 1
  omega

theorem rtake_eq_self {list : List α} {n : Nat} (short : list.length ≤ n) : list.rtake n = list := by
  rw [List.rtake, Nat.sub_eq_zero_of_le short, List.drop_zero]

variable [DecidableEq α]

/-- What comes once more moves to the end. -/
theorem dedup_concat (list : List α) (a : α) :
    (list ++ [a]).dedup = list.dedup.filter (· ≠ a) ++ [a] := by
  induction list with
  | nil => rfl
  | cons b list ih =>
    rw [List.cons_append]
    by_cases last : b = a
    · subst last
      rw [List.dedup_cons_of_mem (List.mem_append_right _ (List.mem_singleton_self b)), ih]
      by_cases again : b ∈ list
      · rw [List.dedup_cons_of_mem again]
      · rw [List.dedup_cons_of_notMem again, List.filter_cons_of_neg (by simp)]
    · by_cases again : b ∈ list
      · rw [List.dedup_cons_of_mem (List.mem_append_left _ again), List.dedup_cons_of_mem again, ih]
      · rw [List.dedup_cons_of_notMem (by simp [again, last]), List.dedup_cons_of_notMem again,
          List.filter_cons_of_pos (by simpa using last), ih, List.cons_append]

/-- One of many distinct things at most is taken out of them. -/
theorem length_le_length_filter {list : List α} (distinct : list.Nodup) (a : α) :
    list.length ≤ (list.filter (· ≠ a)).length + 1 := by
  have same : list.filter (· ≠ a) = list.erase a := by
    rw [distinct.erase_eq_filter]
    exact List.filter_congr fun b _ => by rw [Bool.eq_iff_iff]; simp
  rw [same, List.length_erase]
  split <;> omega

/-- What was dropped before something moves to the end would be dropped after it, too. -/
theorem rtake_filter_concat {list : List α} (distinct : list.Nodup) (a : α) (n : Nat) :
    ((list.rtake n).filter (· ≠ a) ++ [a]).rtake n = (list.filter (· ≠ a) ++ [a]).rtake n := by
  cases n with
  | zero => rw [List.rtake_zero, List.rtake_zero]
  | succ n =>
    rw [List.rtake_concat_succ, List.rtake_concat_succ]
    by_cases short : list.length ≤ n + 1
    · rw [rtake_eq_self short]
    · have split : list = list.take (list.length - (n + 1)) ++ list.rtake (n + 1) :=
        (List.take_append_drop ..).symm
      have kept : (list.rtake (n + 1)).length = n + 1 := by
        rw [List.rtake, List.length_drop]
        omega
      have enough : n ≤ ((list.rtake (n + 1)).filter (· ≠ a)).length := by
        have bound :=
          length_le_length_filter (distinct.sublist (List.drop_sublist (list.length - (n + 1)) list)) a
        rw [show list.drop (list.length - (n + 1)) = list.rtake (n + 1) from rfl, kept] at bound
        omega
      have tail : (list.filter (· ≠ a)).rtake n = ((list.rtake (n + 1)).filter (· ≠ a)).rtake n := by
        rw [congrArg (List.filter (· ≠ a)) split, List.filter_append, rtake_append_of_le enough]
      rw [tail]

end Lists

namespace Cache

/-- One use of a cache, at the time that the clock shows then. -/
inductive Use (τ : Type)
  | get (key : Text) (now : τ)
  | set (key : Text) (entry : CacheEntry τ)
  | put (key : Text) (now : τ) (completion typed : Text)
  | clear

variable {τ : Type} {cache : Cache τ} {key : Text} {now : τ} {entry : CacheEntry τ} {past : List Text}
  {uses : List (Use τ)}

/-- The key and the entry that the use stores. -/
def Use.stores : Use τ → Option (Text × CacheEntry τ)
  | .set key entry => some (key, entry)
  | .put key now completion typed => some (key, stamped now completion typed)
  | .get .. | .clear => none

/-- The entry stored last under the key. -/
def storedLast (key : Text) (uses : List (Use τ)) : Option (CacheEntry τ) :=
  (uses.reverse.filterMap Use.stores).lookup key

/-- The cache holds the keys touched last, each with the entry stored last under it. -/
structure Kept (cache : Cache τ) (past : List Text) (uses : List (Use τ)) : Prop where
  keys : cache.keys = past.dedup.rtake cache.capacity
  stored : ∀ key entry, (key, entry) ∈ cache.entries → storedLast key uses = some entry

theorem storedLast_concat_of_stores {use : Use τ} {other : Text} (stores : use.stores = some (other, entry)) :
    storedLast key (uses ++ [use]) = if key = other then some entry else storedLast key uses := by
  rw [storedLast, List.reverse_append, List.reverse_singleton, List.singleton_append,
    List.filterMap_cons_some stores, List.lookup_cons]
  by_cases same : key = other
  · simp [same]
  · simp [same, beq_eq_false_iff_ne.mpr same, storedLast]

theorem storedLast_concat_of_not {use : Use τ} (stores : use.stores = none) :
    storedLast key (uses ++ [use]) = storedLast key uses := by
  rw [storedLast, List.reverse_append, List.reverse_singleton, List.singleton_append,
    List.filterMap_cons_none stores, storedLast]

theorem keys_touch (cache : Cache τ) (key : Text) (entry : CacheEntry τ) :
    (cache.touch key entry).map Prod.fst = cache.keys.filter (· ≠ key) ++ [key] := by
  simp only [touch, without, keys, List.map_append, List.map_cons, List.map_nil, List.filter_map]
  rfl

theorem keys_set (cache : Cache τ) (key : Text) (entry : CacheEntry τ) :
    (cache.set key entry).keys = (cache.keys.filter (· ≠ key) ++ [key]).rtake cache.capacity := by
  rw [← keys_touch cache key entry, List.rtake, List.length_map, ← List.map_drop]
  rfl

theorem Kept.distinct (kept : cache.Kept past uses) : cache.keys.Nodup := by
  rw [kept.keys]
  exact (List.nodup_dedup past).sublist (List.drop_sublist ..)

theorem Kept.find_iff (kept : cache.Kept past uses) :
    cache.find key = some entry ↔ key ∈ cache.keys ∧ storedLast key uses = some entry := by
  constructor
  · intro found
    have member := mem_of_find cache key found
    exact ⟨List.mem_map_of_mem member, kept.stored key entry member⟩
  · rintro ⟨member, last⟩
    cases found : cache.find key with
    | none =>
      obtain ⟨⟨other, there⟩, member, same⟩ := List.mem_map.mp member
      have apart := List.lookup_eq_none_iff.mp found _ member
      exact absurd same.symm (by simpa using apart)
    | some other =>
      rw [← kept.stored key other (mem_of_find cache key found), last]

/-- What is stored takes the place of the key touched longest ago. -/
theorem Kept.set (kept : cache.Kept past uses) {use : Use τ} (stores : use.stores = some (key, entry)) :
    (cache.set key entry).Kept (past ++ [key]) (uses ++ [use]) where
  keys := by
    rw [keys_set, kept.keys, rtake_filter_concat (List.nodup_dedup past), dedup_concat]
    rfl
  stored := by
    intro other kept' member
    rw [storedLast_concat_of_stores stores]
    have member := (mem_touch cache key entry _).mp (List.mem_of_mem_drop member)
    rcases member with ⟨before, apart⟩ | new
    · rw [if_neg apart]
      exact kept.stored other kept' before
    · cases new
      exact if_pos rfl

/-- A key that was found moves to the end, for which nothing has to be dropped. -/
theorem Kept.touch (kept : cache.Kept past uses) (found : cache.find key = some entry)
    {use : Use τ} (stores : use.stores = none) :
    Kept { cache with entries := cache.touch key entry } (past ++ [key]) (uses ++ [use]) where
  keys := by
    have member : key ∈ cache.keys := List.mem_map_of_mem (mem_of_find cache key found)
    have fewer : (cache.keys.filter (· ≠ key)).length < cache.keys.length :=
      List.length_filter_lt_length_iff_exists.mpr ⟨key, member, by simp⟩
    have bound : cache.keys.length ≤ cache.capacity := by
      rw [kept.keys, List.rtake, List.length_drop]
      omega
    show (cache.touch key entry).map Prod.fst = ((past ++ [key]).dedup).rtake cache.capacity
    rw [dedup_concat, ← rtake_filter_concat (List.nodup_dedup past), ← kept.keys, keys_touch,
      rtake_eq_self]
    rw [List.length_append, List.length_singleton]
    omega
  stored := by
    intro other kept' member
    rw [storedLast_concat_of_not stores]
    rcases (mem_touch cache key entry _).mp member with ⟨before, -⟩ | same
    · exact kept.stored other kept' before
    · cases same
      exact kept.stored key entry (mem_of_find cache key found)

theorem kept_nil (capacity : Nat) (ttl : τ) : Kept { capacity, ttl } [] [] :=
  ⟨(List.rtake_nil _).symm, fun _ _ member => nomatch member⟩

theorem empty_eq_ok {capacity : Int} (room : 1 ≤ capacity) (ttl : τ) :
    empty capacity ttl = .ok { capacity := capacity.toNat, ttl } :=
  if_neg (by omega)

variable [Clock τ]

theorem get_eq_some_iff (cache : Cache τ) : (cache.get key now).1 = some entry ↔
    cache.find key = some entry ∧ Clock.expired now entry.stamp cache.ttl = false := by
  unfold get
  split
  · next absent => simp [absent]
  · next kept found =>
    rw [found, Option.some_inj]
    split
    · next late =>
      simp only [reduceCtorEq, false_iff, not_and]
      rintro rfl
      simp [late]
    · next alive =>
      rw [Option.some_inj]
      refine ⟨?_, And.left⟩
      rintro rfl
      exact ⟨rfl, Bool.eq_false_iff.mpr alive⟩

/-- An entry that a lookup returns has become the most recent one, and nothing else has changed. -/
theorem get_snd (cache : Cache τ) (key : Text) (now : τ) : (cache.get key now).2 =
    match (cache.get key now).1 with
    | some entry => { cache with entries := cache.touch key entry }
    | none => cache := by
  unfold get
  split
  · rfl
  · split <;> rfl

namespace Use

def apply (cache : Cache τ) : Use τ → Cache τ
  | .get key now => (cache.get key now).2
  | .set key entry => cache.set key entry
  | .put key now completion typed => cache.put key now completion typed
  | .clear => cache.clear

/-- The keys touched since the cache was cleared. What is stored touches its key, and a lookup touches
its key if it returns an entry. -/
def touches (cache : Cache τ) (past : List Text) : Use τ → List Text
  | .get key now => if (cache.get key now).1.isSome then past ++ [key] else past
  | .set key _ | .put key .. => past ++ [key]
  | .clear => []

@[simp] theorem ttl_apply (use : Use τ) : (use.apply cache).ttl = cache.ttl := by
  cases use with
  | get key now =>
    rw [apply, get_snd]
    split <;> rfl
  | set | put | clear => rfl

@[simp] theorem capacity_apply (use : Use τ) : (use.apply cache).capacity = cache.capacity := by
  cases use with
  | get key now => exact capacity_get cache key now
  | set | put | clear => rfl

end Use

/-- Every use keeps the keys touched last. -/
theorem Kept.apply (kept : cache.Kept past uses) (use : Use τ) :
    (use.apply cache).Kept (use.touches cache past) (uses ++ [use]) := by
  cases use with
  | get key now =>
    rw [Use.apply, Use.touches, get_snd]
    cases result : (cache.get key now).1 with
    | none =>
      refine ⟨kept.keys, fun other entry member => ?_⟩
      rw [storedLast_concat_of_not rfl]
      exact kept.stored other entry member
    | some entry => exact kept.touch ((get_eq_some_iff cache).mp result).1 rfl
  | set key entry => exact kept.set rfl
  | put key now completion typed => exact kept.set rfl
  | clear => exact ⟨(List.rtake_nil _).symm, fun other entry member => nomatch member⟩

/-- The cache after it was used. -/
def used (cache : Cache τ) (uses : List (Use τ)) : Cache τ :=
  uses.foldl Use.apply cache

/-- The keys touched since the cache was cleared last, in the order in which they were touched. -/
def touched (cache : Cache τ) (past : List Text) : List (Use τ) → List Text
  | [] => past
  | use :: uses => touched (use.apply cache) (use.touches cache past) uses

theorem Kept.used (kept : cache.Kept past uses) (more : List (Use τ)) :
    (cache.used more).Kept (cache.touched past more) (uses ++ more) := by
  induction more generalizing cache past uses with
  | nil => rwa [List.append_nil]
  | cons use more ih =>
    rw [List.append_cons]
    exact ih (kept.apply use)

@[simp] theorem ttl_used (cache : Cache τ) (uses : List (Use τ)) : (cache.used uses).ttl = cache.ttl := by
  induction uses generalizing cache with
  | nil => rfl
  | cons use uses ih => exact (ih _).trans use.ttl_apply

@[simp] theorem capacity_used (cache : Cache τ) (uses : List (Use τ)) :
    (cache.used uses).capacity = cache.capacity := by
  induction uses generalizing cache with
  | nil => rfl
  | cons use uses ih => exact (ih _).trans use.capacity_apply

/-! A completion that is looked up and stored if it is not there. -/

/-- A lookup, and what is stored if it finds nothing. The clock may show anything at either time. -/
structure Access (τ : Type) where
  key : Text
  looked : τ
  made : τ
  completion : Text
  typed : Text

/-- The cache after a lookup that stores what it does not find. -/
def access (cache : Cache τ) (access : Access τ) : Cache τ :=
  match cache.get access.key access.looked with
  | (some _, cache) => cache
  | (none, cache) => cache.put access.key access.made access.completion access.typed

theorem used_append (cache : Cache τ) (first rest : List (Use τ)) :
    cache.used (first ++ rest) = (cache.used first).used rest :=
  List.foldl_append ..

theorem touched_append (cache : Cache τ) (past : List Text) (first rest : List (Use τ)) :
    cache.touched past (first ++ rest) = (cache.used first).touched (cache.touched past first) rest := by
  induction first generalizing cache past with
  | nil => rfl
  | cons use first ih => exact ih ..

/-- An access touches its key once, whether or not it finds an entry. -/
theorem access_eq_used (cache : Cache τ) (access : Access τ) :
    ∃ uses, cache.access access = cache.used uses ∧
      ∀ past, cache.touched past uses = past ++ [access.key] := by
  have looked := get_snd cache access.key access.looked
  rw [Cache.access]
  rcases result : cache.get access.key access.looked with ⟨_ | entry, next⟩
  · rw [result] at looked
    cases looked
    refine ⟨[.get access.key access.looked, .put access.key access.made access.completion access.typed],
      ?_, fun past => ?_⟩
    · simp [used, Use.apply, result]
    · simp [touched, Use.touches, result]
  · refine ⟨[.get access.key access.looked], ?_, fun past => ?_⟩
    · simp [used, Use.apply, result]
    · simp [touched, Use.touches, result]

theorem accesses_eq_used (cache : Cache τ) (accesses : List (Access τ)) :
    ∃ uses, accesses.foldl access cache = cache.used uses ∧
      ∀ past, cache.touched past uses = past ++ accesses.map Access.key := by
  induction accesses generalizing cache with
  | nil => exact ⟨[], rfl, fun past => (List.append_nil past).symm⟩
  | cons access accesses ih =>
    obtain ⟨first, here, once⟩ := access_eq_used cache access
    obtain ⟨rest, after, others⟩ := ih (cache.access access)
    refine ⟨first ++ rest, ?_, fun past => ?_⟩
    · rw [used_append, ← here, ← after, List.foldl_cons]
    · rw [touched_append, once, ← here, others, List.append_assoc, List.singleton_append, List.map_cons]

/-- A cache with room for something holds the keys touched last, from the least to the most recent. A
lookup returns the entry stored last under its key, as long as the key is held and the entry is not older
than the time to live; an age that cannot be compared with it counts as young. Whoever stores what is not
found finds the last keys that were accessed, whatever the clock shows. -/
theorem recency_and_age (capacity : Int) (ttl : Float) (room : 1 ≤ capacity) :
    ∃ fresh, empty capacity ttl = .ok fresh ∧
      (∀ uses, (fresh.used uses).keys = (fresh.touched [] uses).dedup.rtake capacity.toNat) ∧
      (∀ uses key now entry, ((fresh.used uses).get key now).1 = some entry ↔
        key ∈ (fresh.used uses).keys ∧ storedLast key uses = some entry ∧
          (now - entry.stamp ≤ ttl ∨ (now - entry.stamp).isNaN ∨ ttl.isNaN)) ∧
      ∀ accesses : List (Access Float),
        (accesses.foldl access fresh).keys = (accesses.map Access.key).dedup.rtake capacity.toNat := by
  have keys (uses : List (Use Float)) : ((⟨capacity.toNat, ttl, []⟩ : Cache Float).used uses).keys =
      ((⟨capacity.toNat, ttl, []⟩ : Cache Float).touched [] uses).dedup.rtake capacity.toNat := by
    rw [((kept_nil capacity.toNat ttl).used uses).keys, capacity_used]
  refine ⟨_, empty_eq_ok room ttl, keys, fun uses key now entry => ?_, fun accesses => ?_⟩
  · have kept := (kept_nil capacity.toNat ttl).used uses
    rw [get_eq_some_iff, kept.find_iff, ttl_used, and_assoc, List.nil_append, ← not_exceeds_iff]
    exact and_congr_right fun _ => and_congr_right fun _ => decide_eq_false_iff_not
  · obtain ⟨uses, same, touched⟩ := accesses_eq_used ⟨capacity.toNat, ttl, []⟩ accesses
    rw [same, keys, touched, List.nil_append]

/-- In a cache for two, the key that was looked up outlasts the one stored after it. -/
theorem recency_and_age_of_two : (1 : Int) ≤ 2 ∧ ∃ fresh, empty 2 (300 : Float) = .ok fresh ∧
    (fresh.used [.put "a" 0 "1" [], .put "b" 1 "2" [], .get "a" 2, .put "c" 3 "3" []]).keys = ["a", "c"] := by
  obtain ⟨fresh, made, keys, -⟩ := recency_and_age 2 300 (by decide)
  refine ⟨by decide, fresh, made, ?_⟩
  cases made
  rw [keys]
  decide +kernel

/-- A time to live that is not a number is never over, although no age is within it. -/
theorem young_forever : ¬∀ (capacity : Int) (ttl : Float) (fresh : Cache Float), 1 ≤ capacity →
    empty capacity ttl = .ok fresh → ∀ uses key now entry,
      (((fresh.used uses).get key now).1 = some entry ↔ key ∈ (fresh.used uses).keys ∧
        storedLast key uses = some entry ∧ now - entry.stamp ≤ ttl) := by
  intro within
  have stays : ((used ⟨1, (0 / 0 : Float), []⟩ [.put "a" 0 "1" []]).get "a" 0).1 = some (stamped 0 "1" []) :=
    (get_eq_some_iff _).mpr ⟨rfl, by decide +kernel⟩
  have young := ((within 1 (0 / 0) ⟨1, 0 / 0, []⟩ (by decide) rfl _ "a" 0 _).mp stays).2.2
  exact absurd young (by decide +kernel)

end Cache

end InlineCompletion
