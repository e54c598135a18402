import InlineCompletion.Proofs.Text.Erasures
import InlineCompletion.Proofs.Text.Readings

/-!
What is left between the matches that are taken out of a text. No match begins inside of a piece, with all that
follows in the text; where two pieces are joined, one may.
-/

namespace InlineCompletion.Pattern

variable {α β : Type} {p : Pattern α} {q : Pattern Unit} {f : α → Pattern β} {cursor : Cursor} {found : Match α}
  {before text : Text} {fuel : Nat}

/-! Matches that go on in the text. -/

/-- A match ends behind its place, and reads something. -/
def Moves (p : Pattern α) : Prop :=
  ∀ cursor, ∀ found ∈ p cursor, found.2.after <:+ cursor.after ∧ found.2.after.length < cursor.after.length

theorem Moves.bind (first : Moves p) (next : ∀ a, Forward (f a)) : Moves (p >>= f) := by
  intro cursor found member
  obtain ⟨middle, there, onward⟩ := (mem_bind p f cursor found).mp member
  obtain ⟨behind, shorter⟩ := first cursor middle there
  have onward := next _ _ found onward
  exact ⟨onward.trans behind, Nat.lt_of_le_of_lt onward.length_le shorter⟩

theorem Forward.bind_moves (first : Forward p) (next : ∀ a, Moves (f a)) : Moves (p >>= f) := by
  intro cursor found member
  obtain ⟨middle, there, onward⟩ := (mem_bind p f cursor found).mp member
  have behind := first cursor middle there
  obtain ⟨onward, shorter⟩ := next _ _ found onward
  exact ⟨onward.trans behind, Nat.lt_of_lt_of_le shorter behind.length_le⟩

theorem moves_literal (c : Char) (more : Text) : Moves (literal (c :: more)) := by
  intro cursor found member
  have reads : cursor.after = c :: more ++ found.2.after := reads_literal member
  rw [reads]
  have size : (c :: more ++ found.2.after).length = more.length + 1 + found.2.after.length := by
    rw [List.length_append, List.length_cons]
  exact ⟨List.suffix_append .., by omega⟩

/-! What is found. -/

theorem matchesStart_iff : matchesStart p text = true ↔ ∃ found, found ∈ p (Cursor.start text) := by
  rw [matchesStart, matchStart, matchAt, Option.isSome_map, List.isSome_head?]
  constructor
  · exact List.exists_mem_of_ne_nil _
  · rintro ⟨found, member⟩
    exact List.ne_nil_of_mem member

theorem occursIn_iff : occursIn p text = true ↔ ∃ front rest, text = front ++ rest ∧ p ⟨front.reverse, rest⟩ ≠ [] := by
  rw [← Bool.not_eq_false, occursIn_eq_false_iff]
  push Not
  rfl

/-! Pieces. -/

def piecesFrom (cursor : Cursor) : List (Match α) → List Text
  | [] => [cursor.after]
  | found :: more => cursor.between found.first :: piecesFrom found.last more

/-- What is left of the text, piece by piece: between each two a match is taken out. -/
def pieces (p : Pattern α) (text : Text) : List Text :=
  piecesFrom (Cursor.start text) (findAll p text)

theorem flatten_piecesFrom (cursor : Cursor) (found : List (Match α)) :
    (piecesFrom cursor found).flatten = splice (fun _ => []) cursor found := by
  induction found generalizing cursor with
  | nil => exact List.append_nil cursor.after
  | cons found more ih => rw [piecesFrom, List.flatten_cons, ih, splice, List.append_nil]

/-- A character of the joined pieces stands in one of them. -/
theorem exists_piece_of_flatten {ps : List Text} {front rest : Text} {c : Char} (split : ps.flatten = front ++ c :: rest) :
    ∃ before left right others, ps = before ++ (left ++ c :: right) :: others ∧
      front = before.flatten ++ left ∧ rest = right ++ others.flatten := by
  rcases List.flatten_eq_append_iff.mp split with ⟨before, others, rfl, rfl, tail⟩ | ⟨before, left, d, right, others, rfl, rfl, tail⟩
  · obtain ⟨empty, right, more, rfl, none, rfl⟩ := List.flatten_eq_cons_iff.mp tail.symm
    refine ⟨before ++ empty, [], right, more, by simp, ?_, rfl⟩
    rw [List.flatten_append, List.flatten_eq_nil_iff.mpr none]
    simp
  · obtain ⟨rfl, rfl⟩ := List.cons.inj tail
    exact ⟨before, left, right, others, rfl, rfl, rfl⟩

theorem flatten_pieces (p : Pattern α) (text : Text) : (pieces p text).flatten = eraseAll p text :=
  flatten_piecesFrom _ _

/-- The first piece ends where the first match begins. -/
theorem piecesFrom_cons (moves : Moves p) (first : searchFrom p cursor.before cursor.after = some found) (fuel : Nat) :
    ∃ skipped rest, cursor.after = skipped ++ rest ∧ found.first = ⟨skipped.reverse ++ cursor.before, rest⟩ ∧
      (found.value, found.last) ∈ p found.first ∧
      (∀ front c more, skipped = front ++ c :: more → p ⟨front.reverse ++ cursor.before, c :: (more ++ rest)⟩ = []) ∧
      piecesFrom cursor (findFrom p (fuel + 1) cursor) =
        skipped :: piecesFrom found.last (findFrom p fuel found.last) := by
  obtain ⟨skipped, rest, whole, place, member, nowhere⟩ := exists_of_searchFrom first
  have piece : cursor.between found.first = skipped := by
    refine Cursor.Reads.between_eq ?_
    rw [Cursor.Reads, whole, place]
  refine ⟨skipped, rest, whole, place, member, nowhere, ?_⟩
  rw [findFrom, first]
  dsimp only
  rw [if_pos (moves _ _ member).2, piecesFrom, piece]

theorem piecesFrom_of_none (none : searchFrom p cursor.before cursor.after = none) (fuel : Nat) :
    piecesFrom cursor (findFrom p fuel cursor) = [cursor.after] := by
  cases fuel with
  | zero => rfl
  | succ fuel =>
    rw [findFrom, none]
    rfl

/-- At the characters that are kept nothing matches; where the piece ends the text does, or the next match begins. -/
theorem eq_nil_of_piecesFrom (moves : Moves p) (enough : cursor.after.length < fuel) {front others : List Text}
    {left right : Text} {c : Char}
    (split : piecesFrom cursor (findFrom p fuel cursor) = front ++ (left ++ c :: right) :: others) :
    ∃ before rest, p ⟨before, c :: (right ++ rest)⟩ = [] ∧
      (others = [] ∧ rest = [] ∨ ∃ before, p ⟨before, rest⟩ ≠ []) := by
  induction fuel generalizing cursor front with
  | zero => omega
  | succ fuel ih =>
    cases first : searchFrom p cursor.before cursor.after with
    | none =>
      rw [piecesFrom_of_none first] at split
      obtain ⟨-, only⟩ := (List.append_eq_singleton_iff.mp split.symm).resolve_right (by simp)
      obtain ⟨whole, rfl⟩ := List.cons.inj only
      have nowhere := searchFrom_eq_none_iff.mp first left _ whole.symm
      exact ⟨_, [], (List.append_nil right).symm ▸ nowhere, .inl ⟨rfl, rfl⟩⟩
    | some found =>
      obtain ⟨skipped, rest, whole, place, member, nowhere, same⟩ := piecesFrom_cons moves first fuel
      rw [same] at split
      cases front with
      | nil =>
        have piece := (List.cons.inj split).1
        exact ⟨_, rest, nowhere left c right piece, .inr ⟨_, place ▸ List.ne_nil_of_mem member⟩⟩
      | cons _ front =>
        have shorter := (moves _ _ member).2
        rw [place] at shorter
        rw [whole, List.length_append] at enough
        exact ih (by simp only at shorter; omega) (List.cons.inj split).2

theorem eq_nil_of_pieces (moves : Moves p) {front others : List Text} {left right : Text} {c : Char}
    (split : pieces p text = front ++ (left ++ c :: right) :: others) :
    ∃ before rest, p ⟨before, c :: (right ++ rest)⟩ = [] ∧
      (others = [] ∧ rest = [] ∨ ∃ before, p ⟨before, rest⟩ ≠ []) :=
  eq_nil_of_piecesFrom moves (Nat.lt_succ_self _) split

/-! What taking matches out leaves. -/

theorem sublist_piecesFrom (moves : Moves p) (fuel : Nat) (cursor : Cursor) :
    (piecesFrom cursor (findFrom p fuel cursor)).flatten.Sublist cursor.after := by
  induction fuel generalizing cursor with
  | zero => exact (List.append_nil cursor.after).symm ▸ List.Sublist.refl _
  | succ fuel ih =>
    cases first : searchFrom p cursor.before cursor.after with
    | none =>
      rw [piecesFrom_of_none first, List.flatten_singleton]
    | some found =>
      obtain ⟨skipped, rest, whole, place, member, -, same⟩ := piecesFrom_cons moves first fuel
      have onward := (moves _ _ member).1
      rw [place] at onward
      rw [same, List.flatten_cons, whole]
      exact ((ih found.last).trans onward.sublist).append_left skipped

theorem eraseAll_sublist (moves : Moves p) (text : Text) : (eraseAll p text).Sublist text :=
  flatten_pieces p text ▸ sublist_piecesFrom moves _ _

theorem eraseAll_eq_self (absent : occursIn p text = false) : eraseAll p text = text := by
  have none : searchFrom p (Cursor.start text).before (Cursor.start text).after = none :=
    Option.not_isSome_iff_eq_none.mp (Bool.eq_false_iff.mp absent)
  rw [← flatten_pieces, pieces, findAll, piecesFrom_of_none none, List.flatten_singleton]
  rfl

/-- Where something matches, less is left. -/
theorem eraseAll_ne_self (moves : Moves p) (occurs : occursIn p text = true) :
    eraseAll p text ≠ text := by
  intro same
  obtain ⟨found, first⟩ := Option.isSome_iff_exists.mp occurs
  have first : searchFrom p (Cursor.start text).before (Cursor.start text).after = some found := first
  obtain ⟨skipped, rest, whole, place, member, -, cut⟩ := piecesFrom_cons moves first text.length
  have bound := (sublist_piecesFrom moves text.length found.last).length_le
  have shorter := (moves _ _ member).2
  rw [place] at shorter
  have size : (skipped ++ (piecesFrom found.last (findFrom p text.length found.last)).flatten).length =
      (skipped ++ rest).length := by
    rw [← List.flatten_cons, ← cut, ← whole]
    exact congrArg List.length ((flatten_pieces p text).trans same)
  rw [List.length_append, List.length_append] at size
  simp only at shorter
  omega

end InlineCompletion.Pattern
