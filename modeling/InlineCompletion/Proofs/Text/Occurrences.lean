import InlineCompletion.Proofs.Text.Patterns

/-!
All the places of a text where a pattern matches. A search finds the first of them; where no match begins inside
another one, to go on behind each match finds them all.
-/

namespace InlineCompletion.Pattern

variable {α : Type} {p : Pattern α} {found : Match α} {before text : Text}

/-- The preferred matches at the places of the text, from left to right. -/
def occurrences (p : Pattern α) : Text → Text → List (Match α)
  | before, [] => (matchAt p ⟨before, []⟩).toList
  | before, c :: rest => (matchAt p ⟨before, c :: rest⟩).toList ++ occurrences p (c :: before) rest

theorem first_of_matchAt {cursor : Cursor} (here : matchAt p cursor = some found) : found.first = cursor := by
  obtain ⟨_, -, rfl⟩ := Option.map_eq_some_iff.mp here
  rfl

theorem mem_occurrences :
    found ∈ occurrences p before text ↔
      ∃ front rest, text = front ++ rest ∧ matchAt p ⟨front.reverse ++ before, rest⟩ = some found := by
  induction text generalizing before with
  | nil => simp [occurrences, and_assoc]
  | cons c more ih =>
    simp only [occurrences, List.mem_append, Option.mem_toList, ih]
    constructor
    · rintro (here | ⟨front, rest, rfl, there⟩)
      · exact ⟨[], c :: more, rfl, here⟩
      · exact ⟨c :: front, rest, rfl, by simpa using there⟩
    · rintro ⟨front, rest, whole, there⟩
      cases front with
      | nil => exact .inl (by rw [whole]; exact there)
      | cons d front =>
        cases whole
        exact .inr ⟨front, rest, rfl, by simpa using there⟩

theorem column_of_mem_occurrences (member : found ∈ occurrences p before text) : before.length ≤ found.first.column := by
  obtain ⟨front, rest, -, here⟩ := mem_occurrences.mp member
  simp [first_of_matchAt here, Cursor.column]

theorem pairwise_occurrences (p : Pattern α) (before text : Text) :
    (occurrences p before text).Pairwise fun earlier later => earlier.first.column < later.first.column := by
  induction text generalizing before with
  | nil => cases here : matchAt p ⟨before, []⟩ <;> simp [occurrences, here]
  | cons c rest ih =>
    rw [occurrences, List.pairwise_append]
    refine ⟨?_, ih (c :: before), fun earlier here later member => ?_⟩
    · cases here : matchAt p ⟨before, c :: rest⟩ <;> simp
    · have behind := column_of_mem_occurrences member
      simp only [first_of_matchAt (Option.mem_toList.mp here), Cursor.column, List.length_cons] at behind ⊢
      omega

theorem searchFrom_eq_head? (p : Pattern α) (before text : Text) :
    searchFrom p before text = (occurrences p before text).head? := by
  induction text generalizing before with
  | nil => cases here : matchAt p ⟨before, []⟩ <;> simp [searchFrom, occurrences, here]
  | cons c rest ih => cases here : matchAt p ⟨before, c :: rest⟩ <;> simp [searchFrom, occurrences, here, ih]

theorem occurrences_append {front : Text}
    (nowhere : ∀ skipped more, front = skipped ++ more → more ≠ [] →
      matchAt p ⟨skipped.reverse ++ before, more ++ text⟩ = none) :
    occurrences p before (front ++ text) = occurrences p (front.reverse ++ before) text := by
  induction front generalizing before with
  | nil => rfl
  | cons c front ih =>
    have here : matchAt p ⟨before, c :: front ++ text⟩ = none := nowhere [] (c :: front) rfl (List.cons_ne_nil c front)
    have later : occurrences p (c :: before) (front ++ text) = _ := ih fun skipped more split some => by
      simpa using nowhere (c :: skipped) more (congrArg (c :: ·) split) some
    rw [List.cons_append] at here ⊢
    rw [occurrences, here, later]
    simp

/-- Every match reads something, and no other one begins inside it. -/
def Apart (p : Pattern α) : Prop :=
  ∀ before text found, matchAt p ⟨before, text⟩ = some found →
    ∃ c read rest, text = c :: (read ++ rest) ∧ found.last = ⟨read.reverse ++ c :: before, rest⟩ ∧
      ∀ skipped more, read = skipped ++ more → more ≠ [] →
        matchAt p ⟨skipped.reverse ++ c :: before, more ++ rest⟩ = none

/-- The other matches are those behind the first one. -/
theorem occurrences_eq_cons (apart : Apart p) (first : (occurrences p before text).head? = some found) :
    occurrences p before text = found :: occurrences p found.last.before found.last.after ∧
      found.last.after.length < found.first.after.length ∧ found.last.after.length < text.length := by
  have at_start {before text : Text} (here : matchAt p ⟨before, text⟩ = some found) :
      occurrences p before text = found :: occurrences p found.last.before found.last.after ∧
      found.last.after.length < found.first.after.length ∧ found.last.after.length < text.length := by
    obtain ⟨c, read, rest, rfl, last, nowhere⟩ := apart before text found here
    refine ⟨?_, ?_, ?_⟩
    · rw [occurrences, here, occurrences_append nowhere, last]
      rfl
    · simp only [first_of_matchAt here, last, List.length_cons, List.length_append]
      omega
    · simp only [last, List.length_cons, List.length_append]
      omega
  induction text generalizing before with
  | nil =>
    have here : matchAt p ⟨before, []⟩ = some found := by simpa [occurrences] using first
    exact at_start here
  | cons c rest ih =>
    cases here : matchAt p ⟨before, c :: rest⟩ with
    | some other =>
      have same : other = found := by simpa [occurrences, here] using first
      exact at_start (same ▸ here)
    | none =>
      have later : occurrences p before (c :: rest) = occurrences p (c :: before) rest := by
        simp [occurrences, here]
      obtain ⟨cons, shorter, inside⟩ := ih (later ▸ first)
      exact ⟨later.trans cons, shorter, Nat.lt_succ_of_lt inside⟩

theorem findFrom_eq_occurrences (apart : Apart p) {fuel : Nat} (enough : text.length < fuel) :
    findFrom p fuel ⟨before, text⟩ = occurrences p before text := by
  induction fuel generalizing before text with
  | zero => omega
  | succ fuel ih =>
    unfold findFrom
    rw [searchFrom_eq_head?]
    cases first : (occurrences p before text).head? with
    | none => exact (List.head?_eq_none_iff.mp first).symm
    | some found =>
      obtain ⟨cons, shorter, inside⟩ := occurrences_eq_cons apart first
      dsimp only
      have less : found.last.after.length < fuel := by omega
      rw [if_pos shorter, cons, ih less]

/-- Matches that stand apart are all found. -/
theorem findAll_eq_occurrences (apart : Apart p) (text : Text) : findAll p text = occurrences p [] text :=
  findFrom_eq_occurrences apart (Nat.lt_succ_self _)

end InlineCompletion.Pattern
