import InlineCompletion.Data.Validated

/-!
A bounded store of completions. The entry used least recently is dropped first, and an entry that is
older than the cache allows reads as absent while it stays where it is.
-/

namespace InlineCompletion

/-- What a cache needs to know about time. -/
class Clock (τ : Type) where
  /-- Whether what was stamped then has outlived `ttl` by now. -/
  expired : (now stamp ttl : τ) → Bool

instance : Clock Float where
  expired now stamp ttl := now - stamp > ttl

structure CacheEntry (τ : Type) where
  completion : Text
  stamp : τ
  /-- The text left of the cursor when the completion was made. -/
  typed : Text := []
  deriving DecidableEq, Repr

/-- An entry given from outside. -/
def CacheEntry.read (source : Data) : Validated (CacheEntry Float) :=
  CacheEntry.mk <$> Validated.requiredField source "completion" Coerce.text
    <*> Validated.requiredField source "timestamp" Coerce.real
    <*> Validated.field source "line_prefix" Coerce.text []

/-- An entry shown to the outside. -/
def CacheEntry.fields (entry : CacheEntry Float) : List (Text × Data) :=
  [("completion", .text entry.completion), ("timestamp", .real entry.stamp),
    ("line_prefix", .text entry.typed)]

structure Cache (τ : Type) where
  capacity : Nat
  ttl : τ
  /-- By key, from the least to the most recently used. -/
  entries : List (Text × CacheEntry τ) := []

namespace Cache

def defaultCapacity : Int := 100

def defaultTtl : Float := 300.0

def noRoom : Failure := ⟨.value, "capacity must be >= 1"⟩

variable {τ : Type}

def empty (capacity : Int) (ttl : τ) : Except Failure (Cache τ) :=
  if capacity < 1 then .error noRoom else .ok { capacity := capacity.toNat, ttl }

variable (cache : Cache τ) (key : Text)

def keys : List Text :=
  cache.entries.map Prod.fst

def has : Bool :=
  cache.keys.contains key

def find : Option (CacheEntry τ) :=
  cache.entries.lookup key

def without (entries : List (Text × CacheEntry τ)) : List (Text × CacheEntry τ) :=
  entries.filter fun kept => kept.1 ≠ key

/-- Makes the key the most recently used one. -/
def touch (entry : CacheEntry τ) : List (Text × CacheEntry τ) :=
  without key cache.entries ++ [(key, entry)]

/-- The live entry of the key, which becomes the most recent one. -/
def get [Clock τ] (now : τ) : Option (CacheEntry τ) × Cache τ :=
  match cache.find key with
  | none => (none, cache)
  | some entry =>
    if Clock.expired now entry.stamp cache.ttl then (none, cache)
    else (some entry, { cache with entries := cache.touch key entry })

/-- Stores an entry and drops the oldest ones beyond the capacity. -/
def set (entry : CacheEntry τ) : Cache τ :=
  let entries := cache.touch key entry
  { cache with entries := entries.drop (entries.length - cache.capacity) }

/-- The entry of a completion made now. -/
def stamped (now : τ) (completion typed : Text) : CacheEntry τ :=
  { completion, stamp := now, typed }

def put (now : τ) (completion typed : Text) : Cache τ :=
  cache.set key (stamped now completion typed)

def clear : Cache τ :=
  { cache with entries := [] }

theorem length_set_le (entry : CacheEntry τ) :
    (cache.set key entry).entries.length ≤ cache.capacity := by
  simp only [set, List.length_drop]
  omega

end Cache

end InlineCompletion
