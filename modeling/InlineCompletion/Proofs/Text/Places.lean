import InlineCompletion.Proofs.Text.Names
import InlineCompletion.Proofs.Text.Occurrences
import InlineCompletion.Proofs.Text.Pieces

/-!
Where in a text its matches stand. A match leaves the text as it is, with what it has read on its left; and each place at
which a pattern matches is covered by a match that is found, be it that one or one that begins in front of it.
-/

namespace InlineCompletion

namespace Cursor

/-- All of the text around a place. -/
def text (cursor : Cursor) : Text :=
  cursor.before.reverse ++ cursor.after

/-- The text stands between the two places. -/
def Passes (first : Cursor) (read : Text) (last : Cursor) : Prop :=
  first.after = read ++ last.after ∧ last.before = read.reverse ++ first.before

variable {first middle last : Cursor} {read more : Text}

theorem Passes.refl (cursor : Cursor) : cursor.Passes [] cursor := ⟨rfl, rfl⟩

theorem Passes.trans (passes : first.Passes read middle) (onward : middle.Passes more last) :
    first.Passes (read ++ more) last := by
  refine ⟨Reads.trans passes.1 onward.1, ?_⟩
  rw [onward.2, passes.2, List.reverse_append, List.append_assoc]

theorem Passes.text_eq (passes : first.Passes read last) : last.text = first.text := by
  simp [text, passes.1, passes.2]

theorem Passes.column_eq (passes : first.Passes read last) : last.column = first.column + read.length := by
  simp [column, passes.2, Nat.add_comm]

/-- Of two places in one text the one on the left leads to the other. -/
theorem exists_passes (same : first.text = last.text) (le : first.column ≤ last.column) :
    ∃ read, first.Passes read last := by
  obtain ⟨before, after⟩ := first
  obtain ⟨before', after'⟩ := last
  have size : before.reverse.length ≤ before'.reverse.length := by simpa [column] using le
  have same : before.reverse ++ after = before'.reverse ++ after' := same
  obtain ⟨read, split⟩ := List.prefix_of_prefix_length_le ⟨after, rfl⟩ ⟨after', same.symm⟩ size
  refine ⟨read, ?_, ?_⟩
  · rw [← split, List.append_assoc] at same
    exact List.append_cancel_left same
  · rw [← List.reverse_reverse before', ← split, List.reverse_append, List.reverse_reverse]

theorem text_advance (cursor : Cursor) : cursor.advance.text = cursor.text := by
  obtain ⟨before, after⟩ := cursor
  cases after <;> simp [advance, text]

end Cursor

namespace Pattern

variable {α β : Type} {p : Pattern α} {q : Pattern Unit} {f : α → Pattern β} {found : Match α} {cursor place : Cursor}
  {text : Text} {fuel : Nat}

/-! Matches that stay in the text. -/

/-- A match has passed over the text that it reads. -/
def Passing (p : Pattern α) : Prop :=
  ∀ cursor, ∀ found ∈ p cursor, ∃ read, cursor.Passes read found.2

theorem Passing.of_reads (passing : Passing p) {found : α × Cursor} (member : found ∈ p cursor) {read : Text}
    (reads : cursor.Reads read found.2) : cursor.Passes read found.2 := by
  obtain ⟨other, passes⟩ := passing cursor found member
  have reads : cursor.after = read ++ found.2.after := reads
  have same : read = other := List.append_cancel_right (reads.symm.trans passes.1)
  exact same ▸ passes

theorem passing_pure (a : α) : Passing (pure a) := by
  intro cursor found member
  cases List.mem_singleton.mp member
  exact ⟨[], .refl cursor⟩

theorem Passing.bind (first : Passing p) (next : ∀ a, Passing (f a)) : Passing (p >>= f) := by
  intro cursor found member
  obtain ⟨middle, there, onward⟩ := (mem_bind p f cursor found).mp member
  obtain ⟨read, passes⟩ := first cursor middle there
  obtain ⟨more, passes'⟩ := next _ _ found onward
  exact ⟨read ++ more, passes.trans passes'⟩

theorem passing_choice {ps : List (Pattern α)} (all : ∀ p ∈ ps, Passing p) : Passing (choice ps) := by
  intro cursor found member
  obtain ⟨p, given, member⟩ := List.mem_flatMap.mp member
  exact all p given cursor found member

theorem passing_place (holds : Cursor → Bool) : Passing (Pattern.place holds) := fun cursor _ member =>
  ⟨[], (holds_of_mem_place member).2 ▸ .refl cursor⟩

theorem passing_char (p : Char → Bool) : Passing (char p) := by
  intro cursor found member
  unfold char at member
  split at member
  · cases member
  · next c rest after =>
    split at member
    · cases List.mem_singleton.mp member
      exact ⟨[c], after, rfl⟩
    · cases member

theorem passing_literal (text : Text) : Passing (literal text) := by
  intro cursor found member
  obtain ⟨word, rest, -, split, last⟩ := last_of_mem_literalBy member
  rw [last]
  exact ⟨word, split, rfl⟩

theorem passing_oneOfWords (ws : List Text) : Passing (oneOfWords ws) := by
  refine passing_choice fun p member => ?_
  obtain ⟨word, -, rfl⟩ := List.mem_map.mp member
  exact passing_literal word

theorem passes_of_mem_runEnds {p : Char → Bool} {before after : Text} {ends : Cursor}
    (member : ends ∈ runEnds p before after) : ∃ read, (⟨before, after⟩ : Cursor).Passes read ends := by
  induction after generalizing before with
  | nil =>
    cases List.mem_singleton.mp member
    exact ⟨[], .refl _⟩
  | cons c rest ih =>
    rcases List.mem_cons.mp member with rfl | member
    · exact ⟨[], .refl _⟩
    · split at member
      · obtain ⟨read, passes⟩ := ih member
        have step : (⟨before, c :: rest⟩ : Cursor).Passes [c] ⟨c :: before, rest⟩ := ⟨rfl, rfl⟩
        exact ⟨_, step.trans passes⟩
      · cases member

theorem passing_many (p : Char → Bool) : Passing (many p) := by
  intro cursor found member
  obtain ⟨ends, there, rfl⟩ := List.mem_map.mp member
  exact passes_of_mem_runEnds (List.mem_reverse.mp there)

theorem passing_many1 (p : Char → Bool) : Passing (many1 p) :=
  (passing_char p).bind fun _ => passing_many p

theorem passing_captured (passing : Passing q) : Passing (captured q) := fun cursor _ member =>
  passing cursor _ (mem_of_mem_captured member).1

theorem passing_name : Passing name :=
  (passing_char _).bind fun _ => passing_many _

/-! Names, as much of them as there is. -/

theorem moves_char (p : Char → Bool) : Moves (char p) := by
  intro cursor found member
  obtain ⟨c, -, reads⟩ := reads_char member
  have reads : cursor.after = [c] ++ found.2.after := reads
  exact reads ▸ ⟨List.suffix_append .., by simp⟩

theorem Moves.captured (moves : Moves q) : Moves (captured q) := fun cursor _ member =>
  moves cursor _ (mem_of_mem_captured member).1

theorem moves_name : Moves name :=
  (moves_char _).bind fun _ => forward_many _

theorem Prefers.of_captured {last : Cursor} {word : Cursor × Cursor}
    (preferred : Prefers (Pattern.captured q) cursor word last) : Prefers q cursor () last ∧ word = (cursor, last) := by
  unfold Prefers Pattern.captured at *
  rw [List.head?_map, Option.map_eq_some_iff] at preferred
  obtain ⟨inner, first, same⟩ := preferred
  cases same
  exact ⟨first, rfl⟩

/-- A name ends where no character of one follows. -/
theorem Prefers.of_name {last : Cursor} (preferred : Prefers name cursor () last) :
    ∃ read : Text, read.IsIdentifier ∧ cursor.Reads read last ∧ ∀ c ∈ last.after.head?, Text.isNameChar c = false := by
  obtain ⟨read, named, reads⟩ := reads_name (List.mem_of_head? preferred)
  refine ⟨read, named, reads, fun c member => ?_⟩
  obtain ⟨-, middle, -, run⟩ := preferred.of_bind
  have stops := List.head?_dropWhile_not Text.isNameChar middle.after
  rw [← run.after_of_many, Option.mem_def.mp member] at stops
  simpa using stops

/-! The places of the matches that are found. -/

theorem Passing.of_matchAt (passing : Passing p) (here : matchAt p cursor = some found) :
    ∃ read, cursor.Passes read found.last := by
  obtain ⟨pair, first, rfl⟩ := Option.map_eq_some_iff.mp here
  exact passing cursor pair (List.mem_of_head? first)

/-- What is found is a preferred match at a place of the text. -/
theorem mem_findFrom (passing : Passing p) (member : found ∈ findFrom p fuel cursor) :
    matchAt p found.first = some found ∧ found.first.text = cursor.text := by
  induction fuel generalizing cursor with
  | zero => cases member
  | succ fuel ih =>
    unfold findFrom at member
    split at member
    · cases member
    · next first search =>
      have found_first : matchAt p first.first = some first ∧ first.first.text = cursor.text := by
        rw [searchFrom_eq_head?] at search
        obtain ⟨front, rest, split, here⟩ := mem_occurrences.mp (List.mem_of_head? search)
        have place := first_of_matchAt here
        refine ⟨place ▸ here, ?_⟩
        rw [place, Cursor.text, Cursor.text, split]
        simp
      rcases List.mem_cons.mp member with rfl | later
      · exact found_first
      · obtain ⟨here, same⟩ := ih later
        refine ⟨here, same.trans (Eq.trans ?_ found_first.2)⟩
        obtain ⟨read, passes⟩ := passing.of_matchAt found_first.1
        split
        · exact passes.text_eq
        · exact (Cursor.text_advance _).trans passes.text_eq

theorem mem_findAll (passing : Passing p) (member : found ∈ findAll p text) :
    matchAt p found.first = some found ∧ found.first.text = text :=
  mem_findFrom passing member

/-- Where a pattern matches, the search from a place further left finds a match that reaches beyond. -/
theorem exists_covering_from (passing : Passing p) (moves : Moves p) (here : p place ≠ [])
    (same : cursor.text = place.text) (le : cursor.column ≤ place.column) (enough : cursor.after.length < fuel) :
    ∃ found ∈ findFrom p fuel cursor, found.first.column ≤ place.column ∧ place.column < found.last.column := by
  induction fuel generalizing cursor with
  | zero => omega
  | succ fuel ih =>
    obtain ⟨front, ahead⟩ := Cursor.exists_passes same le
    have at_place {rest : Text} (split : place.after = rest) : place = ⟨front.reverse ++ cursor.before, rest⟩ :=
      Cursor.mk.injEq .. ▸ ⟨ahead.2, split⟩
    cases first : searchFrom p cursor.before cursor.after with
    | none =>
      have none := searchFrom_eq_none_iff.mp first front place.after ahead.1
      exact absurd (at_place rfl ▸ none) here
    | some found =>
      obtain ⟨skipped, rest, whole, start, member, nowhere⟩ := exists_of_searchFrom first
      have passed : cursor.Passes skipped found.first := by rw [start]; exact ⟨whole, rfl⟩
      obtain ⟨read, reads⟩ := passing _ _ member
      obtain ⟨-, shorter⟩ := moves _ _ member
      have before : found.first.column ≤ place.column := by
        by_contra beyond
        have less : front.length < skipped.length := by
          rw [passed.column_eq, ahead.column_eq] at beyond
          omega
        obtain ⟨more, split⟩ := List.prefix_of_prefix_length_le ⟨place.after, ahead.1.symm⟩ ⟨rest, whole.symm⟩
          (Nat.le_of_lt less)
        cases more with
        | nil => simp [← split] at less
        | cons c more =>
          have rest : place.after = c :: (more ++ rest) := by
            have both := ahead.1.symm.trans whole
            rw [← split, List.append_assoc] at both
            exact List.append_cancel_left both
          exact here (at_place rest ▸ nowhere front c more split.symm)
      rw [findFrom, first]
      dsimp only
      rw [if_pos shorter]
      by_cases covered : place.column < found.last.column
      · exact ⟨found, List.mem_cons_self .., before, covered⟩
      · have bound : found.last.after.length < fuel := by
          have size := congrArg List.length passed.1
          rw [List.length_append] at size
          have shorter : found.last.after.length < found.first.after.length := shorter
          omega
        obtain ⟨other, later, bounds⟩ := ih
          ((reads.text_eq.trans passed.text_eq).trans same) (Nat.le_of_not_lt covered) bound
        exact ⟨other, List.mem_cons_of_mem _ later, bounds⟩

/-- Where a pattern matches, a match is found there, or one that begins further left and ends further right. -/
theorem exists_covering (passing : Passing p) (moves : Moves p) (here : p place ≠ []) (same : place.text = text) :
    ∃ found ∈ findAll p text, found.first.column ≤ place.column ∧ place.column < found.last.column :=
  exists_covering_from passing moves here same.symm (Nat.zero_le _) (Nat.lt_succ_self _)

/-- A match has passed over some text of characters of the class. -/
def PassesOnly (part : Char → Bool) (p : Pattern α) : Prop :=
  ∀ cursor, ∀ found ∈ p cursor, ∃ read, read ≠ [] ∧ (∀ c ∈ read, part c = true) ∧ cursor.Passes read found.2

section

variable {part : Char → Bool}

theorem PassesOnly.passing (only : PassesOnly part p) : Passing p := by
  intro cursor found member
  obtain ⟨read, -, -, passes⟩ := only cursor found member
  exact ⟨read, passes⟩

theorem PassesOnly.moves (only : PassesOnly part p) : Moves p := by
  intro cursor found member
  obtain ⟨read, some, -, passes⟩ := only cursor found member
  rw [passes.1]
  exact ⟨List.suffix_append .., by simpa using List.length_pos_iff.mpr some⟩

/-- A match at a place is found if no character of those that matches read stands on its left. -/
theorem PassesOnly.finds (only : PassesOnly part p) {front rest : Text} {a : α} {last : Cursor}
    (preferred : Prefers p ⟨front.reverse, rest⟩ a last) (left : ∀ c ∈ front.getLast?, part c = false) :
    (⟨⟨front.reverse, rest⟩, last, a⟩ : Match α) ∈ findAll p (front ++ rest) := by
  have around : (⟨front.reverse, rest⟩ : Cursor).text = front ++ rest := by simp [Cursor.text]
  have possible : p ⟨front.reverse, rest⟩ ≠ [] := List.ne_nil_of_mem (List.mem_of_head? preferred)
  obtain ⟨found, member, before, behind⟩ := exists_covering only.passing only.moves possible around
  obtain ⟨here, whole⟩ := mem_findAll only.passing member
  obtain ⟨skipped, passes⟩ := Cursor.exists_passes (whole.trans around.symm) before
  rcases List.eq_nil_or_concat skipped with rfl | ⟨skipped, c, rfl⟩
  · have start : found.first = ⟨front.reverse, rest⟩ := Cursor.mk.injEq .. ▸ ⟨passes.2.symm, passes.1⟩
    rw [start, preferred.matchAt] at here
    cases here
    exact member
  · -- The match that is found would hold the character on the left.
    obtain ⟨pair, first, same⟩ := Option.map_eq_some_iff.mp here
    obtain ⟨read, -, all, within⟩ := only _ pair (List.mem_of_head? first)
    have last : found.last = pair.2 := by rw [← same]
    rw [last, within.column_eq, passes.column_eq] at behind
    obtain ⟨more, split⟩ := List.prefix_of_prefix_length_le ⟨_, passes.1.symm⟩ ⟨_, within.1.symm⟩
      (Nat.le_of_lt (Nat.lt_of_add_lt_add_left behind))
    have apart : part c = false := by
      refine left c ?_
      have before : front.reverse = _ := passes.2
      rw [← List.head?_reverse, before]
      simp
    cases apart.symm.trans (all c (split ▸ by simp))

end

end Pattern

end InlineCompletion
