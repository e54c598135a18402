import InlineCompletion.Text.Pattern

/-!
What a pattern needs in order to match, and which of its matches comes first. A text without what a pattern
needs is left as it is by a replacement, and the preferred match of a sequence is found step by step.
-/

namespace InlineCompletion.Pattern

variable {α β : Type} {p : Pattern α} {q : Pattern Unit} {f : α → Pattern β} {cursor middle last : Cursor}
  {a : α} {b : β} {wanted : Char → Bool}

/-- A match ends in what follows its place. -/
def Forward (p : Pattern α) : Prop :=
  ∀ cursor, ∀ found ∈ p cursor, found.2.after <:+ cursor.after

/-- Every match finds such a character after its place. -/
def Needs (wanted : Char → Bool) (p : Pattern α) : Prop :=
  ∀ cursor, ∀ found ∈ p cursor, ∃ c ∈ cursor.after, wanted c = true

/-! Matches go on in the text. -/

theorem forward_pure (a : α) : Forward (pure a) := by
  intro cursor found member
  cases List.mem_singleton.mp member
  exact List.suffix_refl _

theorem Forward.bind (first : Forward p) (next : ∀ a, Forward (f a)) : Forward (p >>= f) := by
  intro cursor found member
  obtain ⟨middle, there, onward⟩ := (mem_bind p f cursor found).mp member
  exact (next _ _ found onward).trans (first cursor middle there)

theorem forward_orElse {p' : Pattern α} (first : Forward p) (second : Forward p') : Forward (orElse p p') :=
  fun cursor found member => (List.mem_append.mp member).elim (first cursor found) (second cursor found)

theorem forward_choice {ps : List (Pattern α)} (all : ∀ p ∈ ps, Forward p) : Forward (choice ps) := by
  intro cursor found member
  obtain ⟨p, given, member⟩ := List.mem_flatMap.mp member
  exact all p given cursor found member

theorem forward_place (holds : Cursor → Bool) : Forward (place holds) := by
  intro cursor found member
  unfold place at member
  split at member
  · cases List.mem_singleton.mp member
    exact List.suffix_refl _
  · cases member

theorem forward_char (p : Char → Bool) : Forward (char p) := by
  intro cursor found member
  unfold char at member
  split at member
  · cases member
  · next c rest after =>
    split at member
    · cases List.mem_singleton.mp member
      exact after ▸ List.suffix_cons c rest
    · cases member

theorem forward_literalBy (same : Char → Char → Bool) (text : Text) : Forward (literalBy same text) := by
  induction text with
  | nil => exact forward_pure ()
  | cons expected more ih =>
    intro cursor found member
    unfold literalBy at member
    split at member
    · cases member
    · next c rest after =>
      split at member
      · exact after ▸ (ih _ found member).trans (List.suffix_cons c rest)
      · cases member

theorem forward_literal (text : Text) : Forward (literal text) :=
  forward_literalBy _ text

theorem forward_oneOfWords (ws : List Text) : Forward (oneOfWords ws) := by
  refine forward_choice fun p member => ?_
  obtain ⟨word, -, rfl⟩ := List.mem_map.mp member
  exact forward_literal word

theorem isSuffix_of_mem_runEnds {p : Char → Bool} {before after : Text} {ends : Cursor}
    (member : ends ∈ runEnds p before after) : ends.after <:+ after := by
  induction after generalizing before with
  | nil =>
    cases List.mem_singleton.mp member
    exact List.suffix_refl _
  | cons c rest ih =>
    rcases List.mem_cons.mp member with rfl | member
    · exact List.suffix_refl _
    · split at member
      · exact (ih member).trans (List.suffix_cons c rest)
      · cases member

theorem forward_many (p : Char → Bool) : Forward (many p) := by
  intro cursor found member
  obtain ⟨ends, there, rfl⟩ := List.mem_map.mp member
  exact isSuffix_of_mem_runEnds (List.mem_reverse.mp there)

theorem forward_many1 (p : Char → Bool) : Forward (many1 p) :=
  (forward_char p).bind fun _ => forward_many p

theorem forward_blanks : Forward blanks :=
  forward_many _

theorem forward_someBlanks : Forward someBlanks :=
  forward_many1 _

theorem forward_fewest (p : Char → Bool) : Forward (fewest p) := by
  intro cursor found member
  obtain ⟨ends, there, rfl⟩ := List.mem_map.mp member
  exact isSuffix_of_mem_runEnds there

theorem forward_optional (forward : Forward q) : Forward (optional q) :=
  forward_orElse forward (forward_pure ())

theorem forward_captured (forward : Forward q) : Forward (captured q) := by
  intro cursor found member
  obtain ⟨inner, there, rfl⟩ := List.mem_map.mp member
  exact forward cursor inner there

/-! What a match needs. -/

theorem needs_bind (first : Needs wanted p) : Needs wanted (p >>= f) := by
  intro cursor found member
  obtain ⟨before, member, -⟩ := (mem_bind p f cursor found).mp member
  exact first cursor before member

theorem needs_bind_of_forward (first : Forward p) (next : ∀ a, Needs wanted (f a)) :
    Needs wanted (p >>= f) := by
  intro cursor found member
  obtain ⟨before, member, rest⟩ := (mem_bind p f cursor found).mp member
  obtain ⟨c, there, given⟩ := next before.1 before.2 found rest
  exact ⟨c, (first cursor before member).subset there, given⟩

theorem needs_char {p : Char → Bool} (weaker : ∀ c, p c = true → wanted c = true) :
    Needs wanted (char p) := by
  intro cursor found member
  unfold char at member
  split at member
  · cases member
  · next c rest after =>
    split at member
    · next given => exact ⟨c, after ▸ List.mem_cons_self .., weaker c given⟩
    · cases member

theorem needs_literal (c : Char) (more : Text) : Needs (· = c) (literal (c :: more)) := by
  intro cursor found member
  unfold literal literalBy at member
  split at member
  · cases member
  · next c' rest after =>
    split at member
    · next same =>
      exact ⟨c', after ▸ List.mem_cons_self .., by simpa [eq_comm] using same⟩
    · cases member

/-! Where a search looks. -/

theorem matchAt_eq_none_iff : matchAt p cursor = none ↔ p cursor = [] := by
  simp [matchAt]

/-- Nothing is found exactly if nothing matches anywhere. -/
theorem searchFrom_eq_none_iff {before text : Text} :
    searchFrom p before text = none ↔
      ∀ front rest, text = front ++ rest → p ⟨front.reverse ++ before, rest⟩ = [] := by
  induction text generalizing before with
  | nil =>
    refine matchAt_eq_none_iff.trans ⟨fun none front rest split => ?_, fun nowhere => nowhere [] [] rfl⟩
    obtain ⟨rfl, rfl⟩ := List.append_eq_nil_iff.mp split.symm
    exact none
  | cons c text ih =>
    unfold searchFrom
    constructor
    · intro none front rest split
      split at none
      · cases none
      · next here =>
        cases front with
        | nil =>
          rw [List.nil_append] at split
          exact split ▸ matchAt_eq_none_iff.mp here
        | cons d front =>
          cases split
          simpa using ih.mp none front rest rfl
    · intro nowhere
      have here : matchAt p ⟨before, c :: text⟩ = none := matchAt_eq_none_iff.mpr (nowhere [] (c :: text) rfl)
      rw [here]
      refine ih.mpr fun front rest split => ?_
      have shifted := nowhere (c :: front) rest (congrArg (c :: ·) split)
      rwa [List.reverse_cons, List.append_assoc] at shifted

/-- In front of the match that is found first nothing matches. -/
theorem exists_of_searchFrom {before text : Text} {found : Match α} (first : searchFrom p before text = some found) :
    ∃ skipped rest, text = skipped ++ rest ∧ found.first = ⟨skipped.reverse ++ before, rest⟩ ∧
      (found.value, found.last) ∈ p found.first ∧
      ∀ front c more, skipped = front ++ c :: more → p ⟨front.reverse ++ before, c :: (more ++ rest)⟩ = [] := by
  have at_start {before text : Text} (here : matchAt p ⟨before, text⟩ = some found) :
      found.first = ⟨before, text⟩ ∧ (found.value, found.last) ∈ p found.first := by
    obtain ⟨pair, preferred, rfl⟩ := Option.map_eq_some_iff.mp here
    exact ⟨rfl, List.mem_of_head? preferred⟩
  induction text generalizing before with
  | nil => exact ⟨[], [], rfl, (at_start first).1, (at_start first).2, by simp⟩
  | cons c text ih =>
    unfold searchFrom at first
    split at first
    · next other here =>
      cases first
      exact ⟨[], c :: text, rfl, (at_start here).1, (at_start here).2, by simp⟩
    · next none =>
      obtain ⟨skipped, rest, rfl, place, member, nowhere⟩ := ih first
      refine ⟨c :: skipped, rest, rfl, by simpa using place, member, fun front d more split => ?_⟩
      cases front with
      | nil =>
        cases split
        exact matchAt_eq_none_iff.mp none
      | cons e front =>
        cases split
        simpa using nowhere front d more rfl

theorem search_eq_none {text : Text} (nowhere : ∀ front rest, text = front ++ rest → p ⟨front.reverse, rest⟩ = []) :
    search p text = none :=
  searchFrom_eq_none_iff.mpr (by simpa using nowhere)

theorem occursIn_eq_false_iff {text : Text} :
    occursIn p text = false ↔ ∀ front rest, text = front ++ rest → p ⟨front.reverse, rest⟩ = [] := by
  rw [occursIn, Option.isSome_eq_false_iff, Option.isNone_iff_eq_none, search, searchFrom_eq_none_iff]
  simp only [List.append_nil]

/-- A replacement changes nothing where nothing matches. -/
theorem replaceAll_eq_self {text : Text}
    (nowhere : ∀ front rest, text = front ++ rest → p ⟨front.reverse, rest⟩ = [])
    (replacement : Match α → Text) : replaceAll p replacement text = text := by
  have none : p.searchFrom (Cursor.start text).before (Cursor.start text).after = none := search_eq_none nowhere
  unfold replaceAll findAll findFrom
  rw [none]
  rfl

theorem eraseFirst_eq_self {text : Text}
    (nowhere : ∀ front rest, text = front ++ rest → p ⟨front.reverse, rest⟩ = []) : eraseFirst p text = text := by
  rw [eraseFirst, replaceFirst, search_eq_none nowhere]
  rfl

/-- Without what it needs a pattern does not match. -/
theorem Needs.eq_nil (needs : Needs wanted p) (before : Text) {rest : Text}
    (lacks : ∀ c ∈ rest, wanted c = false) : p ⟨before, rest⟩ = [] := by
  refine List.eq_nil_iff_forall_not_mem.mpr fun found member => ?_
  obtain ⟨c, there, given⟩ := needs ⟨before, rest⟩ found member
  cases (lacks c there).symm.trans given

theorem Needs.nowhere (needs : Needs wanted p) (before : Text) {text : Text}
    (lacks : ∀ c ∈ text, wanted c = false) (front rest : Text) (split : text = front ++ rest) :
    p ⟨front.reverse ++ before, rest⟩ = [] :=
  needs.eq_nil _ fun c member => lacks c (split ▸ List.mem_append_right front member)

theorem Needs.replaceAll_eq (needs : Needs wanted p) {text : Text} (lacks : ∀ c ∈ text, wanted c = false)
    (replacement : Match α → Text) : replaceAll p replacement text = text :=
  replaceAll_eq_self (fun front rest split => by
    have none := needs.nowhere [] lacks front rest split
    rwa [List.append_nil] at none) replacement

theorem Needs.occursIn_eq (needs : Needs wanted p) {text : Text} (lacks : ∀ c ∈ text, wanted c = false) :
    occursIn p text = false :=
  occursIn_eq_false_iff.mpr (by simpa using needs.nowhere [] lacks)

/-! The preferred match. -/

/-- The match of a pattern at a place that comes first. -/
def Prefers (p : Pattern α) (cursor : Cursor) (a : α) (last : Cursor) : Prop :=
  (p cursor).head? = some (a, last)

theorem prefers_pure (a : α) (cursor : Cursor) : Prefers (pure a) cursor a cursor := rfl

theorem Prefers.bind (first : Prefers p cursor a middle) (next : Prefers (f a) middle b last) :
    Prefers (p >>= f) cursor b last := by
  show ((p cursor).flatMap fun found => f found.1 found.2).head? = _
  obtain ⟨rest, same⟩ := List.head?_eq_some_iff.mp first
  rw [same, List.head?_flatMap, List.findSome?_cons, next]

theorem bind_eq_nil (none : p cursor = []) : (p >>= f) cursor = [] := by
  show (p cursor).flatMap _ = []
  rw [none]
  rfl

theorem prefers_place {holds : Cursor → Bool} (given : holds cursor = true) :
    Prefers (place holds) cursor () cursor := by
  unfold Prefers place
  rw [if_pos given]
  rfl

theorem Prefers.orElse {p' : Pattern α} (first : Prefers p cursor a last) :
    Prefers (orElse p p') cursor a last := by
  unfold Prefers Pattern.orElse
  rw [List.head?_append, first]
  rfl

/-- Where the first choice leads nowhere, the second one is preferred. -/
theorem Prefers.orElse_bind {p' : Pattern α} (none : (p >>= f) cursor = []) (given : Prefers (p' >>= f) cursor b last) :
    Prefers (Pattern.orElse p p' >>= f) cursor b last := by
  have none : (p cursor).flatMap (fun found => f found.1 found.2) = [] := none
  show ((p cursor ++ p' cursor).flatMap fun found => f found.1 found.2).head? = _
  rw [List.flatMap_append, none, List.nil_append]
  exact given

theorem prefers_char {p : Char → Bool} {c : Char} (given : p c = true) (before rest : Text) :
    Prefers (char p) ⟨before, c :: rest⟩ () ⟨c :: before, rest⟩ := by
  show (if p c = true then _ else _ : List (Unit × Cursor)).head? = _
  rw [if_pos given]
  rfl

theorem char_eq_nil {p : Char → Bool} {c : Char} (other : p c = false) (before rest : Text) :
    char p ⟨before, c :: rest⟩ = [] := by
  show (if p c = true then _ else _ : List (Unit × Cursor)) = _
  rw [if_neg (by simp [other])]

/-- Where a pattern does not match, making it optional skips it. -/
theorem prefers_optional (none : q cursor = []) : Prefers (optional q) cursor () cursor := by
  unfold Prefers optional Pattern.orElse
  rw [none]
  rfl

theorem prefers_literal (text before rest : Text) :
    Prefers (literal text) ⟨before, text ++ rest⟩ () ⟨text.reverse ++ before, rest⟩ := by
  unfold Prefers literal
  induction text generalizing before with
  | nil => rfl
  | cons c more ih =>
    show (if decide (c = c) = true then _ else _ : List (Unit × Cursor)).head? = _
    rw [if_pos (decide_eq_true rfl), List.reverse_cons, List.append_assoc]
    exact ih (c :: before)

theorem getLast?_runEnds {p : Char → Bool} {run rest : Text} (all : ∀ c ∈ run, p c = true)
    (stops : ∀ c ∈ rest.head?, p c = false) (before : Text) :
    (runEnds p before (run ++ rest)).getLast? = some ⟨run.reverse ++ before, rest⟩ := by
  induction run generalizing before with
  | nil =>
    cases rest with
    | nil => rfl
    | cons c more =>
      rw [List.nil_append, runEnds, if_neg (by simp [stops c rfl])]
      rfl
  | cons c more ih =>
    rw [List.cons_append, runEnds, if_pos (all c (List.mem_cons_self ..)), List.getLast?_cons,
      ih fun c member => all c (List.mem_cons_of_mem _ member)]
    simp

/-- A run of a class goes on to its end. -/
theorem prefers_many {p : Char → Bool} {run rest : Text} (all : ∀ c ∈ run, p c = true)
    (stops : ∀ c ∈ rest.head?, p c = false) (before : Text) :
    Prefers (many p) ⟨before, run ++ rest⟩ () ⟨run.reverse ++ before, rest⟩ := by
  unfold Prefers many
  rw [List.head?_map, List.head?_reverse, getLast?_runEnds all stops before]
  rfl

theorem Prefers.captured (given : Prefers q cursor () last) :
    Prefers (captured q) cursor (cursor, last) last := by
  unfold Prefers Pattern.captured
  rw [List.head?_map, given]
  rfl

/-- Where a pattern does not match, its repetition is over. -/
theorem prefers_star (none : q cursor = []) : Prefers (star q) cursor () cursor := by
  unfold Prefers star
  cases cursor.after.length with
  | zero => rfl
  | succ fuel =>
    unfold repeated
    rw [none]
    rfl

theorem Prefers.matchAt (given : Prefers p cursor a last) : matchAt p cursor = some ⟨cursor, last, a⟩ := by
  unfold Pattern.matchAt
  rw [given]
  rfl

/-- Where nothing matches inside a text, a search goes on behind it. -/
theorem searchFrom_append {before front text : Text}
    (nowhere : ∀ skipped rest, front = skipped ++ rest → rest ≠ [] →
      p ⟨skipped.reverse ++ before, rest ++ text⟩ = []) :
    searchFrom p before (front ++ text) = searchFrom p (front.reverse ++ before) text := by
  induction front generalizing before with
  | nil => rfl
  | cons c more ih =>
    have here : matchAt p ⟨before, c :: more ++ text⟩ = none :=
      matchAt_eq_none_iff.mpr (nowhere [] (c :: more) rfl (List.cons_ne_nil c more))
    rw [List.cons_append] at here ⊢
    rw [searchFrom, here, List.reverse_cons, List.append_assoc]
    refine ih fun skipped rest split some => ?_
    have later := nowhere (c :: skipped) rest (congrArg (c :: ·) split) some
    rwa [List.reverse_cons, List.append_assoc] at later

/-- A pattern that matches the end of a text and nothing before it takes that end away. -/
theorem eraseAll_tail {front tail before : Text} (some : tail ≠ [])
    (nowhere : ∀ skipped rest, front = skipped ++ rest → rest ≠ [] → p ⟨skipped.reverse, rest ++ tail⟩ = [])
    (given : Prefers p ⟨front.reverse, tail⟩ a ⟨before, []⟩) (spent : ∀ before, p ⟨before, []⟩ = []) :
    eraseAll p (front ++ tail) = front := by
  have first : searchFrom p (Cursor.start (front ++ tail)).before (Cursor.start (front ++ tail)).after =
      Option.some ⟨⟨front.reverse, tail⟩, ⟨before, []⟩, a⟩ := by
    refine (searchFrom_append fun skipped rest split some => ?_).trans ?_
    · exact (List.append_nil skipped.reverse).symm ▸ nowhere skipped rest split some
    · rw [show front.reverse ++ (Cursor.start (front ++ tail)).before = front.reverse from List.append_nil _]
      cases tail with
      | nil => exact absurd rfl some
      | cons c rest =>
        unfold searchFrom
        rw [given.matchAt]
  have last (fuel : Nat) : findFrom p fuel ⟨before, []⟩ = [] := by
    cases fuel with
    | zero => rfl
    | succ fuel =>
      unfold findFrom searchFrom
      rw [matchAt_eq_none_iff.mpr (spent before)]
  unfold eraseAll replaceAll Pattern.findAll findFrom
  rw [first]
  dsimp only
  rw [if_pos (show ([] : Text).length < tail.length from List.length_pos_iff.mpr some), last]
  show (front ++ tail).take ((front ++ tail).length - tail.length) ++ [] ++ [] = front
  simp

/-! What a replacement leaves. -/

theorem mem_of_searchFrom {before text : Text} {found : Match α} (first : searchFrom p before text = some found) :
    (found.value, found.last) ∈ p found.first ∧ found.first.after ⊆ text := by
  obtain ⟨skipped, rest, rfl, place, member, -⟩ := exists_of_searchFrom first
  exact ⟨member, place ▸ List.subset_append_right skipped rest⟩

/-- Every match that is found is one, of a part of the text. -/
theorem mem_of_findFrom (forward : Forward p) {fuel : Nat} {cursor : Cursor} {found : Match α}
    (member : found ∈ findFrom p fuel cursor) :
    (found.value, found.last) ∈ p found.first ∧ found.first.after ⊆ cursor.after := by
  induction fuel generalizing cursor with
  | zero => cases member
  | succ fuel ih =>
    unfold findFrom at member
    split at member
    · cases member
    · next first search =>
      obtain ⟨matched, part⟩ := mem_of_searchFrom search
      rcases List.mem_cons.mp member with rfl | later
      · exact ⟨matched, part⟩
      · obtain ⟨matched', part'⟩ := ih later
        have onward := (forward _ _ matched).subset
        refine ⟨matched', List.Subset.trans part' ?_⟩
        split
        · exact List.Subset.trans onward part
        · refine List.Subset.trans ?_ (List.Subset.trans onward part)
          unfold Cursor.advance
          split
          · exact List.Subset.refl _
          · next c rest after => exact after ▸ List.subset_cons_self c rest

/-- Every character after a replacement was there or replaces something. -/
theorem mem_of_replaceAll (forward : Forward p) {replacement : Match α → Text} {text : Text} {c : Char}
    (member : c ∈ replaceAll p replacement text) :
    c ∈ text ∨ ∃ found : Match α, (found.value, found.last) ∈ p found.first ∧ found.first.after ⊆ text ∧
      c ∈ replacement found := by
  have spliced (found : List (Match α)) (cursor : Cursor) (part : cursor.after ⊆ text)
      (all : ∀ m ∈ found, (m.value, m.last) ∈ p m.first ∧ m.first.after ⊆ text)
      (member : c ∈ splice replacement cursor found) :
      c ∈ text ∨ ∃ found : Match α, (found.value, found.last) ∈ p found.first ∧ found.first.after ⊆ text ∧
        c ∈ replacement found := by
    induction found generalizing cursor with
    | nil => exact Or.inl (part member)
    | cons m more ih =>
      obtain ⟨matched, inside⟩ := all m (List.mem_cons_self ..)
      rcases List.mem_append.mp member with early | later
      · rcases List.mem_append.mp early with kept | new
        · exact Or.inl (part ((List.take_sublist _ _).subset kept))
        · exact Or.inr ⟨m, matched, inside, new⟩
      · exact ih m.last (List.Subset.trans (forward _ _ matched).subset inside)
          (fun m' member => all m' (List.mem_cons_of_mem _ member)) later
  exact spliced _ _ (List.Subset.refl text) (fun m found => mem_of_findFrom forward found) member

end InlineCompletion.Pattern
