import Mathlib.Data.List.Forall2
import InlineCompletion.Proofs.Text.Patterns

/-!
What a match has read: the text between the place where it begins and the place where it ends. The parts of a
sequence read one after the other, and a preferred match of a class reads as much as there is.
-/

namespace InlineCompletion

/-- From the one place to the other stands this text. -/
def Cursor.Reads (first : Cursor) (read : Text) (last : Cursor) : Prop :=
  first.after = read ++ last.after

namespace Cursor

variable {first middle last : Cursor} {read more : Text}

theorem Reads.trans (reads : first.Reads read middle) (onward : middle.Reads more last) :
    first.Reads (read ++ more) last := by
  unfold Reads at *
  rw [reads, onward, List.append_assoc]

theorem Reads.between_eq (reads : first.Reads read last) : first.between last = read := by
  unfold Reads at reads
  unfold between
  rw [reads, List.length_append, Nat.add_sub_cancel, List.take_left]

end Cursor

namespace Pattern

variable {α β : Type} {p : Pattern α} {q : Pattern Unit} {f : α → Pattern β} {cursor middle last : Cursor}
  {a : α} {b : β} {found : Unit × Cursor}

/-! What a match reads. -/

theorem holds_of_mem_place {holds : Cursor → Bool} (member : found ∈ place holds cursor) :
    holds cursor = true ∧ found.2 = cursor := by
  unfold place at member
  split at member
  · next given => exact ⟨given, by rw [List.mem_singleton.mp member]⟩
  · cases member

theorem reads_char {p : Char → Bool} (member : found ∈ char p cursor) :
    ∃ c, p c = true ∧ cursor.Reads [c] found.2 := by
  unfold char at member
  split at member
  · cases member
  · next c rest after =>
    split at member
    · next given =>
      cases List.mem_singleton.mp member
      exact ⟨c, given, after⟩
    · cases member

theorem reads_literalBy {same : Char → Char → Bool} {text : Text} (member : found ∈ literalBy same text cursor) :
    ∃ word, List.Forall₂ (fun expected c => same expected c = true) text word ∧ cursor.Reads word found.2 := by
  induction text generalizing cursor with
  | nil =>
    cases List.mem_singleton.mp member
    exact ⟨[], .nil, rfl⟩
  | cons expected more ih =>
    unfold literalBy at member
    split at member
    · cases member
    · next c rest after =>
      split at member
      · next given =>
        obtain ⟨word, all, reads⟩ := ih member
        exact ⟨c :: word, .cons given all, after.trans (congrArg _ reads)⟩
      · cases member

/-- A literal goes on from its place by what it reads. -/
theorem last_of_mem_literalBy {same : Char → Char → Bool} {text : Text} (member : found ∈ literalBy same text cursor) :
    ∃ word rest, List.Forall₂ (fun expected c => same expected c = true) text word ∧ cursor.after = word ++ rest ∧
      found.2 = ⟨word.reverse ++ cursor.before, rest⟩ := by
  induction text generalizing cursor with
  | nil =>
    cases List.mem_singleton.mp member
    exact ⟨[], cursor.after, .nil, rfl, rfl⟩
  | cons expected more ih =>
    unfold literalBy at member
    split at member
    · cases member
    · next c rest after =>
      split at member
      · next given =>
        obtain ⟨word, rest, all, split, last⟩ := ih member
        exact ⟨c :: word, rest, .cons given all, after.trans (congrArg _ split), by simpa using last⟩
      · cases member

theorem mem_bind_of_mem {found : β × Cursor} (first : (a, middle) ∈ p cursor) (next : found ∈ f a middle) :
    found ∈ (p >>= f) cursor :=
  (mem_bind p f cursor found).mpr ⟨(a, middle), first, next⟩

theorem mem_literal (text before rest : Text) :
    ((), ⟨text.reverse ++ before, rest⟩) ∈ literal text ⟨before, text ++ rest⟩ :=
  List.mem_of_head? (prefers_literal text before rest)

theorem mem_literalBy {same : Char → Char → Bool} {text word : Text}
    (all : List.Forall₂ (fun expected c => same expected c = true) text word) (before rest : Text) :
    ((), ⟨word.reverse ++ before, rest⟩) ∈ literalBy same text ⟨before, word ++ rest⟩ := by
  induction all generalizing before with
  | nil => exact List.mem_singleton_self _
  | @cons expected c more word given _ ih =>
    show _ ∈ if same expected c = true then _ else _
    rw [if_pos given, List.reverse_cons, List.append_assoc]
    exact ih (c :: before)

theorem reads_literal {text : Text} (member : found ∈ literal text cursor) : cursor.Reads text found.2 := by
  obtain ⟨word, same, reads⟩ := reads_literalBy member
  have same : List.Forall₂ Eq text word := same.imp fun _ _ => of_decide_eq_true
  rw [List.forall₂_eq_eq_eq] at same
  rw [same]
  exact reads

theorem reads_of_mem_runEnds {p : Char → Bool} {before after : Text} {ends : Cursor}
    (member : ends ∈ runEnds p before after) : ∃ run, (∀ c ∈ run, p c = true) ∧ after = run ++ ends.after := by
  induction after generalizing before with
  | nil =>
    cases List.mem_singleton.mp member
    exact ⟨[], fun _ member => absurd member List.not_mem_nil, rfl⟩
  | cons c rest ih =>
    rcases List.mem_cons.mp member with rfl | member
    · exact ⟨[], fun _ member => absurd member List.not_mem_nil, rfl⟩
    · split at member
      · next given =>
        obtain ⟨run, all, split⟩ := ih member
        refine ⟨c :: run, fun d member => ?_, congrArg _ split⟩
        exact (List.mem_cons.mp member).elim (fun same => same ▸ given) (all d)
      · cases member

theorem reads_many {p : Char → Bool} (member : found ∈ many p cursor) :
    ∃ run, (∀ c ∈ run, p c = true) ∧ cursor.Reads run found.2 := by
  obtain ⟨ends, there, rfl⟩ := List.mem_map.mp member
  exact reads_of_mem_runEnds (List.mem_reverse.mp there)

theorem reads_many1 {p : Char → Bool} (member : found ∈ many1 p cursor) :
    ∃ run, run ≠ [] ∧ (∀ c ∈ run, p c = true) ∧ cursor.Reads run found.2 := by
  obtain ⟨first, member, rest⟩ := (mem_bind _ _ cursor found).mp member
  obtain ⟨c, given, reads⟩ := reads_char member
  obtain ⟨run, all, onward⟩ := reads_many rest
  refine ⟨c :: run, List.cons_ne_nil c run, fun d member => ?_, reads.trans onward⟩
  exact (List.mem_cons.mp member).elim (fun same => same ▸ given) (all d)

theorem mem_of_mem_optional (member : found ∈ optional q cursor) : found ∈ q cursor ∨ found.2 = cursor :=
  (List.mem_append.mp member).imp_right fun skipped => by rw [List.mem_singleton.mp skipped]

theorem mem_of_mem_captured {found : (Cursor × Cursor) × Cursor} (member : found ∈ captured q cursor) :
    ((), found.2) ∈ q cursor ∧ found.1 = (cursor, found.2) := by
  obtain ⟨inner, there, rfl⟩ := List.mem_map.mp member
  exact ⟨there, rfl⟩

theorem mem_captured (member : ((), last) ∈ q cursor) : ((cursor, last), last) ∈ captured q cursor :=
  List.mem_map_of_mem (f := fun found => ((cursor, found.2), found.2)) member

/-- A repetition reads piece after piece. -/
theorem reads_star {kind : Text → Prop}
    (each : ∀ cursor, ∀ found ∈ q cursor, ∃ read, kind read ∧ cursor.Reads read found.2)
    (member : found ∈ star q cursor) :
    ∃ pieces : List Text, (∀ piece ∈ pieces, kind piece) ∧ cursor.Reads pieces.flatten found.2 := by
  have still (cursor : Cursor) : ∃ pieces : List Text, (∀ piece ∈ pieces, kind piece) ∧
      cursor.Reads pieces.flatten cursor :=
    ⟨[], fun _ member => absurd member List.not_mem_nil, rfl⟩
  unfold star at member
  generalize cursor.after.length = fuel at member
  induction fuel generalizing cursor with
  | zero =>
    cases List.mem_singleton.mp member
    exact still cursor
  | succ fuel ih =>
    rcases List.mem_append.mp member with more | done
    · obtain ⟨next, first, rest⟩ := List.mem_flatMap.mp more
      split at rest
      · obtain ⟨read, given, reads⟩ := each cursor next first
        obtain ⟨pieces, all, onward⟩ := ih rest
        refine ⟨read :: pieces, fun piece member => ?_, reads.trans onward⟩
        exact (List.mem_cons.mp member).elim (fun same => same ▸ given) (all piece)
      · cases rest
    · cases List.mem_singleton.mp done
      exact still cursor

/-! What the preferred match reads. -/

/-- The preferred match of a sequence goes on with a preferred one. -/
theorem Prefers.of_bind (preferred : Prefers (p >>= f) cursor b last) :
    ∃ a middle, (a, middle) ∈ p cursor ∧ Prefers (f a) middle b last := by
  have preferred : ((p cursor).flatMap fun found => f found.1 found.2).head? = some (b, last) := preferred
  rw [List.head?_flatMap] at preferred
  obtain ⟨⟨a, middle⟩, member, onward⟩ := List.exists_of_findSome?_eq_some preferred
  exact ⟨a, middle, member, onward⟩

theorem Prefers.of_bind_pure {c : β} (preferred : Prefers (p >>= fun _ => pure b) cursor c last) :
    c = b ∧ ∃ a, Prefers p cursor a last := by
  have preferred : ((p cursor).flatMap fun found => [(b, found.2)]).head? = some (c, last) := preferred
  unfold Prefers
  cases possible : p cursor with
  | nil =>
    rw [possible] at preferred
    cases preferred
  | cons first rest =>
    rw [possible] at preferred
    cases preferred
    exact ⟨rfl, first.1, rfl⟩

/-- As much of a class as there is. -/
theorem Prefers.after_of_many {p : Char → Bool} (preferred : Prefers (many p) cursor () last) :
    last.after = cursor.after.dropWhile p := by
  obtain ⟨before, after⟩ := cursor
  have stops : ∀ c ∈ (after.dropWhile p).head?, p c = false := fun c member => by
    have given := List.head?_dropWhile_not p after
    rw [Option.mem_def.mp member] at given
    simpa using given
  have whole : Prefers (many p) ⟨before, after.takeWhile p ++ after.dropWhile p⟩ ()
      ⟨(after.takeWhile p).reverse ++ before, after.dropWhile p⟩ :=
    prefers_many (List.all_eq_true.mp List.all_takeWhile) stops before
  rw [List.takeWhile_append_dropWhile] at whole
  cases whole.symm.trans preferred
  rfl

/-! Edges of words. -/

section

variable {word : Text}

/-- In front of a word there is an edge exactly if it is not the rest of a longer one. -/
theorem edge_front_iff (some : word ≠ []) (solid : ∀ c ∈ word, Text.isWordChar c = true) (before rest : Text) :
    (wordOnLeft ⟨before, word ++ rest⟩ != wordOnRight ⟨before, word ++ rest⟩) = true ↔
      ∀ c ∈ before.head?, Text.isWordChar c = false := by
  obtain ⟨first, more, rfl⟩ := List.exists_cons_of_ne_nil some
  have right : wordOnRight ⟨before, first :: more ++ rest⟩ = true := solid first (List.mem_cons_self ..)
  rw [right]
  cases before with
  | nil => simp [wordOnLeft]
  | cons c before => simp [wordOnLeft]

/-- Behind a word there is an edge exactly if it does not go on. -/
theorem edge_behind_iff (some : word ≠ []) (solid : ∀ c ∈ word, Text.isWordChar c = true) (before rest : Text) :
    (wordOnLeft ⟨word.reverse ++ before, rest⟩ != wordOnRight ⟨word.reverse ++ before, rest⟩) = true ↔
      ∀ c ∈ rest.head?, Text.isWordChar c = false := by
  obtain ⟨front, last, rfl⟩ := (List.eq_nil_or_concat word).resolve_left some
  rw [List.concat_eq_append] at solid ⊢
  have left : wordOnLeft ⟨(front ++ [last]).reverse ++ before, rest⟩ = true := by
    simpa [wordOnLeft] using solid last (List.mem_append_right front (List.mem_singleton_self last))
  rw [left]
  cases rest with
  | nil => simp [wordOnRight]
  | cons c rest => simp [wordOnRight]

end

end Pattern

end InlineCompletion
