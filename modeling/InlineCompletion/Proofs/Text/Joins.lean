import InlineCompletion.Text.Basic
import Mathlib.Data.List.Infix
import Mathlib.Order.Bounds.Basic

/-!
Texts taken apart at a separator and joined again. Pieces without the separator can be read back, and so can the lines
of a text, where a line break stands in front of every line but the first, which is one behind every line but the last.
A search for a needle finds the least place where it occurs. A cut at an index takes and drops; an index left of the text
is counted from its end.
-/

namespace InlineCompletion.Text

theorem not_mem_of_mem_splitOn {separator : Char} {text piece : Text}
    (member : piece ∈ splitOn separator text) : separator ∉ piece := by
  induction text generalizing piece with
  | nil =>
    cases List.mem_singleton.mp member
    exact List.not_mem_nil
  | cons c rest ih =>
    unfold splitOn at member
    split at member
    · rcases List.mem_cons.mp member with rfl | later
      · exact List.not_mem_nil
      · exact ih later
    · next other =>
      cases pieces : splitOn separator rest with
      | nil => exact absurd pieces (splitOn_ne_nil separator rest)
      | cons first more =>
        simp only [pieces, List.mem_cons] at member ih
        rcases member with rfl | later
        · intro inside
          rcases List.mem_cons.mp inside with same | inside
          · exact other same.symm
          · exact ih (Or.inl rfl) inside
        · exact ih (Or.inr later)

theorem splitOn_of_not_mem {separator : Char} {piece : Text} (free : separator ∉ piece) :
    splitOn separator piece = [piece] := by
  induction piece with
  | nil => rfl
  | cons c rest ih =>
    have apart : c ≠ separator := fun same => free (same ▸ List.mem_cons_self ..)
    have free' : separator ∉ rest := fun member => free (List.mem_cons_of_mem _ member)
    simp only [splitOn, if_neg apart, ih free']

theorem splitOn_append {separator : Char} {piece : Text} (free : separator ∉ piece) (rest : Text) :
    splitOn separator (piece ++ separator :: rest) = piece :: splitOn separator rest := by
  induction piece with
  | nil => simp [splitOn]
  | cons c more ih =>
    have apart : c ≠ separator := fun same => free (same ▸ List.mem_cons_self ..)
    have free' : separator ∉ more := fun member => free (List.mem_cons_of_mem _ member)
    simp only [List.cons_append, splitOn, if_neg apart, ih free']

theorem splitOn_join {separator : Char} {pieces : List Text} (some : pieces ≠ [])
    (free : ∀ piece ∈ pieces, separator ∉ piece) : splitOn separator (join [separator] pieces) = pieces := by
  induction pieces with
  | nil => exact absurd rfl some
  | cons piece more ih =>
    have first := free piece (List.mem_cons_self ..)
    cases more with
    | nil => exact splitOn_of_not_mem first
    | cons second others =>
      have later := ih (List.cons_ne_nil second others) fun other member =>
        free other (List.mem_cons_of_mem _ member)
      have joined : join [separator] (piece :: second :: others) =
          piece ++ separator :: join [separator] (second :: others) := by
        simp [join]
      rw [joined, splitOn_append first, later]

theorem join_injective_of_ne_nil {separator : Char} {pieces others : List Text} (some : pieces ≠ []) (some' : others ≠ [])
    (free : ∀ piece ∈ pieces, separator ∉ piece) (free' : ∀ piece ∈ others, separator ∉ piece)
    (same : join [separator] pieces = join [separator] others) : pieces = others := by
  calc pieces = splitOn separator (join [separator] pieces) := (splitOn_join some free).symm
    _ = splitOn separator (join [separator] others) := by rw [same]
    _ = others := splitOn_join some' free'

theorem not_mem_join {c separator : Char} (apart : c ≠ separator) {pieces : List Text}
    (free : ∀ piece ∈ pieces, c ∉ piece) :
    c ∉ join [separator] pieces := by
  induction pieces with
  | nil => exact List.not_mem_nil
  | cons piece more ih =>
    have later := ih fun other member => free other (List.mem_cons_of_mem _ member)
    have first := free piece (List.mem_cons_self ..)
    cases more with
    | nil => exact first
    | cons second others => simpa [join, apart, first] using later

theorem join_ne_nil (separator : Text) {pieces : List Text} (some : pieces ≠ []) (solid : ∀ piece ∈ pieces, piece ≠ []) :
    join separator pieces ≠ [] := by
  obtain ⟨piece, more, rfl⟩ := List.exists_cons_of_ne_nil some
  have first := solid piece (List.mem_cons_self ..)
  cases more with
  | nil => exact first
  | cons second others => simp [join, first]

/-- Pieces of which none is empty can be read back, even if there are none. -/
theorem join_injective {separator : Char} {pieces others : List Text}
    (solid : ∀ piece ∈ pieces, piece ≠ [] ∧ separator ∉ piece)
    (solid' : ∀ piece ∈ others, piece ≠ [] ∧ separator ∉ piece)
    (same : join [separator] pieces = join [separator] others) : pieces = others := by
  rcases Decidable.em (pieces = []) with rfl | some
  · exact Classical.byContradiction fun none =>
      join_ne_nil _ (Ne.symm none) (fun piece member => (solid' piece member).1) same.symm
  rcases Decidable.em (others = []) with rfl | some'
  · exact absurd same (join_ne_nil _ some fun piece member => (solid piece member).1)
  · exact join_injective_of_ne_nil some some' (fun piece member => (solid piece member).2)
      (fun piece member => (solid' piece member).2) same

/-- What stands before the first separator can be read back. -/
theorem append_cons_inj {separator : Char} {piece piece' rest rest' : Text} (free : separator ∉ piece)
    (free' : separator ∉ piece') (same : piece ++ separator :: rest = piece' ++ separator :: rest') :
    piece = piece' ∧ rest = rest' := by
  induction piece generalizing piece' with
  | nil =>
    cases piece' with
    | nil => exact ⟨rfl, (List.cons.inj same).2⟩
    | cons c more => exact absurd ((List.cons.inj same).1 ▸ List.mem_cons_self ..) free'
  | cons c more ih =>
    cases piece' with
    | nil => exact absurd ((List.cons.inj same).1.symm ▸ List.mem_cons_self ..) free
    | cons c' more' =>
      obtain ⟨rfl, after⟩ := List.cons.inj same
      obtain ⟨rfl, later⟩ := ih (fun member => free (List.mem_cons_of_mem _ member))
        (fun member => free' (List.mem_cons_of_mem _ member)) after
      exact ⟨rfl, later⟩

/-- Lines can be read back from their text. -/
theorem unlines_injective {first second : List Text} (some : first ≠ []) (some' : second ≠ [])
    (free : ∀ line ∈ first, '\n' ∉ line) (free' : ∀ line ∈ second, '\n' ∉ line)
    (same : unlines first = unlines second) : first = second :=
  join_injective_of_ne_nil some some' free free' same

theorem unlines_cons_cons (line next : Text) (below : List Text) :
    unlines (line :: next :: below) = line ++ '\n' :: unlines (next :: below) := by
  simp [unlines, join]

theorem unlines_cons (line : Text) (below : List Text) : unlines (line :: below) = line ++ below.flatMap ('\n' :: ·) := by
  induction below generalizing line with
  | nil => exact (List.append_nil line).symm
  | cons next below ih => rw [unlines_cons_cons, ih, List.flatMap_cons, List.cons_append]

theorem unlines_append {above : List Text} (some : above ≠ []) (below : List Text) :
    unlines (above ++ below) = unlines above ++ below.flatMap ('\n' :: ·) := by
  obtain ⟨line, above, rfl⟩ := List.exists_cons_of_ne_nil some
  rw [List.cons_append, unlines_cons, unlines_cons, List.flatMap_append, List.append_assoc]

theorem unlines_concat (above : List Text) (line : Text) :
    unlines (above ++ [line]) = above.flatMap (· ++ ['\n']) ++ line := by
  induction above with
  | nil => rfl
  | cons first above ih =>
    have some : above ++ [line] ≠ [] := List.append_ne_nil_of_right_ne_nil above (List.cons_ne_nil line [])
    obtain ⟨next, below, split⟩ := List.exists_cons_of_ne_nil some
    rw [List.cons_append, split, unlines_cons_cons, ← split, ih]
    simp

/-- A needle that is not empty begins in front of the end of the text. -/
theorem lt_length_of_prefix_drop {needle text : Text} {index : Nat} (solid : needle ≠ [])
    (begins : needle <+: text.drop index) : index < text.length := by
  have room := begins.length_le
  have filled := List.length_pos_of_ne_nil solid
  rw [List.length_drop] at room
  omega

theorem indexOf?_eq_none_iff {needle text : Text} : indexOf? needle text = none ↔ ¬ needle <:+: text := by
  induction text with
  | nil => cases needle <;> simp [indexOf?]
  | cons c rest ih =>
    have here : startsWith (c :: rest) needle = true ↔ needle <+: c :: rest := List.isPrefixOf_iff_prefix
    rw [indexOf?, List.infix_cons_iff, not_or, ← ih, ← here]
    split
    · next begins => simp [begins]
    · next begins => simp [begins]

/-- A needle is found where it occurs first. -/
theorem indexOf?_eq_some_iff {needle text : Text} {index : Nat} :
    indexOf? needle text = some index ↔ IsLeast {place | needle <+: text.drop place} index := by
  have least {found : Nat} (given : indexOf? needle text = some found) :
      IsLeast {place | needle <+: text.drop place} found := by
    induction text generalizing found with
    | nil =>
      cases needle with
      | nil =>
        obtain rfl : 0 = found := Option.some_inj.mp given
        exact ⟨List.nil_prefix, fun place _ => Nat.zero_le place⟩
      | cons c tail => cases given
    | cons c rest ih =>
      rw [indexOf?] at given
      split at given
      · next begins =>
        obtain rfl : 0 = found := Option.some_inj.mp given
        exact ⟨List.isPrefixOf_iff_prefix.mp begins, fun place _ => Nat.zero_le place⟩
      · next passed =>
        obtain ⟨later, there, rfl⟩ := Option.map_eq_some_iff.mp given
        obtain ⟨begins, first⟩ := ih there
        refine ⟨begins, fun place here => ?_⟩
        cases place with
        | zero => exact absurd (List.isPrefixOf_iff_prefix.mpr here) passed
        | succ place => exact Nat.succ_le_succ (first here)
  refine ⟨least, fun given => ?_⟩
  cases found : indexOf? needle text with
  | none =>
    have inside : needle <:+: text := given.1.isInfix.trans (List.drop_suffix index text).isInfix
    exact absurd inside (indexOf?_eq_none_iff.mp found)
  | some other => exact congrArg some ((least found).unique given)

/-- The first occurrence is where the text is said to begin with the needle, if it does not before. -/
theorem indexOf?_append {needle front rest : Text} (begins : needle <+: rest)
    (nowhere : ∀ skipped more, front = skipped ++ more → more ≠ [] → ¬ needle <+: more ++ rest) :
    indexOf? needle (front ++ rest) = some front.length := by
  refine indexOf?_eq_some_iff.mpr ⟨by rwa [Set.mem_ofPred_eq, List.drop_left], fun place given => ?_⟩
  by_contra before
  have inside : place < front.length := Nat.lt_of_not_le before
  rw [Set.mem_ofPred_eq, List.drop_append_of_le_length inside.le] at given
  exact nowhere (front.take place) (front.drop place) (List.take_append_drop place front).symm (by simpa using inside)
    given

/-- A needle whose first character stands nowhere else in it cannot overlap with another one: behind a text without the
needle it is found where it stands. -/
theorem indexOf?_of_once {c : Char} {tail front : Text} (once : c ∉ tail) (free : ¬ c :: tail <:+: front) (rest : Text) :
    indexOf? (c :: tail) (front ++ (c :: tail ++ rest)) = some front.length := by
  refine indexOf?_append (List.prefix_append ..) ?_
  rintro skipped more rfl some begins
  rcases List.prefix_or_prefix_of_prefix begins (List.prefix_append more _) with inside | part
  · exact free (inside.isInfix.trans (List.suffix_append ..).isInfix)
  · -- The needle would go on behind the front with its first character.
    obtain ⟨behind, whole⟩ := part
    obtain ⟨further, split⟩ := begins
    obtain ⟨d, more, rfl⟩ := List.exists_cons_of_ne_nil some
    obtain ⟨rfl, rfl⟩ := List.cons_eq_cons.mp whole
    have split : behind ++ further = d :: (more ++ behind ++ rest) := by simpa using split
    cases behind with
    | nil =>
      refine free ?_
      rw [List.append_eq, List.append_nil]
      exact (List.suffix_append skipped (d :: more)).isInfix
    | cons e behind =>
      obtain ⟨rfl, -⟩ := List.cons_eq_cons.mp split
      exact once (List.mem_append_right more (List.mem_cons_self ..))

/-- Only repetitions of such a needle may as well stand in front of it as behind it. -/
theorem append_comm_iff_of_once {c : Char} {tail : Text} (once : c ∉ tail) (word : Text) :
    word ++ c :: tail = c :: tail ++ word ↔ ∃ times, word = (List.replicate times (c :: tail)).flatten := by
  constructor
  · intro same
    induction size : word.length using Nat.strongRecOn generalizing word with
    | ind long ih =>
      rcases List.append_eq_append_iff.mp same with ⟨more, whole, whole'⟩ | ⟨more, split, split'⟩
      · -- Both would be part of the needle, which begins with either of them.
        cases word with
        | nil => exact ⟨0, rfl⟩
        | cons d word =>
          obtain ⟨rfl, rfl⟩ := List.cons_eq_cons.mp whole
          cases more with
          | nil => exact ⟨1, by simp⟩
          | cons e more =>
            obtain ⟨rfl, -⟩ := List.cons_eq_cons.mp whole'
            exact absurd (List.mem_append_right word (List.mem_cons_self ..)) once
      · have less : more.length < long := by
          rw [← size, split, List.length_append, List.length_cons]
          omega
        obtain ⟨times, rfl⟩ := ih more.length less more (split'.symm.trans split) rfl
        exact ⟨times + 1, split⟩
  · rintro ⟨times, rfl⟩
    induction times with
    | zero => simp
    | succ times ih => rw [List.replicate_succ, List.flatten_cons, List.append_assoc, ih]

section Cuts

variable {text : Text} {index : Int}

theorem sliceTo_append_sliceFrom (text : Text) (index : Int) : sliceTo text index ++ sliceFrom text index = text :=
  List.take_append_drop ..

theorem clampIndex_of_nonneg {length : Nat} (right : 0 ≤ index) : clampIndex length index = min index.toNat length :=
  if_neg (by omega)

theorem sliceTo_of_nonneg (right : 0 ≤ index) : sliceTo text index = text.take index.toNat := by
  rw [sliceTo, clampIndex_of_nonneg right, List.take_eq_take_iff]
  omega

theorem sliceFrom_of_nonneg (right : 0 ≤ index) : sliceFrom text index = text.drop index.toNat := by
  rw [sliceFrom, clampIndex_of_nonneg right]
  rcases Nat.le_total index.toNat text.length with inside | behind
  · rw [Nat.min_eq_left inside]
  · rw [Nat.min_eq_right behind, List.drop_length, List.drop_of_length_le behind]

theorem slice_succ_of_nonneg (right : 0 ≤ index) : slice text index (index + 1) = (text.drop index.toNat).take 1 := by
  have next : (index + 1).toNat = index.toNat + 1 := by omega
  have one : index.toNat + 1 - index.toNat = 1 := Nat.add_sub_cancel_left ..
  rw [slice, sliceTo_of_nonneg (by omega), next, clampIndex_of_nonneg right]
  rcases Nat.le_total index.toNat text.length with inside | behind
  · rw [Nat.min_eq_left inside, List.drop_take, one]
  · rw [Nat.min_eq_right behind, List.drop_of_length_le behind, List.drop_of_length_le (List.length_take_le' ..)]
    rfl

/-- At an index counted from the end stands the character there. The last one is never seen: the next index is the start
of the text. -/
theorem slice_succ_of_neg (left : index < 0) :
    slice text index (index + 1) =
      if index < -1 ∧ 0 ≤ index + text.length then (text[(index + text.length).toNat]?).toList else [] := by
  rw [slice, sliceTo]
  split
  · next inside =>
    have here : clampIndex text.length index = (index + text.length).toNat := if_pos left
    have next : clampIndex text.length (index + 1) = (index + text.length).toNat + 1 :=
      (if_pos (by omega)).trans (by omega)
    rw [here, next, List.drop_take, Nat.add_sub_cancel_left, List.take_one, List.head?_drop]
  · next outside =>
    have start : clampIndex text.length (index + 1) = 0 := by
      unfold clampIndex
      split <;> omega
    rw [start, List.take_zero, List.drop_nil]

end Cuts

end InlineCompletion.Text
