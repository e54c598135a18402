import InlineCompletion.Proofs.Scan.Marks

/-!
Searches for a token outside of literals, and what a text is when it is cut there. A search goes from one occurrence of
the token to the next, behind the first character of each that begins in a literal, so that it also meets occurrences
that overlap. It ends with the first one that begins outside. Since what follows does not matter for a literal, the
text in front of that is scanned by itself as it is in the whole, and has no such occurrence left.
-/

namespace InlineCompletion.Scan

open Text

variable {text token leader kept : Text} {start index k : Nat} {finding : Finding}

/-! Occurrences. -/

/-- The next occurrence of the token, looked for from an index on. -/
def occurrence? (text token : Text) (start : Nat) : Option Nat :=
  if text.length < start then none else (indexOf? token (text.drop start)).map (start + ·)

theorem isLeast_of_occurrence? (found : occurrence? text token start = some index) :
    IsLeast {place | start ≤ place ∧ token <+: text.drop place} index := by
  unfold occurrence? at found
  split at found
  · cases found
  · obtain ⟨k, there, rfl⟩ := Option.map_eq_some_iff.mp found
    have shift (k : Nat) : (text.drop start).drop k = text.drop (start + k) := List.drop_drop
    obtain ⟨begins, first⟩ := indexOf?_eq_some_iff.mp there
    refine ⟨⟨Nat.le_add_right .., shift k ▸ begins⟩, fun place ⟨behind, given⟩ => ?_⟩
    rw [← Nat.add_sub_of_le behind, ← shift] at given
    have bound : k ≤ place - start := first given
    omega

theorem not_prefix_of_occurrence? (solid : token ≠ []) (absent : occurrence? text token start = none)
    (behind : start ≤ k) : ¬ token <+: text.drop k := by
  intro begins
  have inside := lt_length_of_prefix_drop solid begins
  unfold occurrence? at absent
  split at absent
  · omega
  · rw [← Nat.add_sub_of_le behind, ← List.drop_drop] at begins
    refine indexOf?_eq_none_iff.mp (Option.map_eq_none_iff.mp absent) ?_
    exact begins.isInfix.trans (List.drop_suffix ..).isInfix

/-! The loop. -/

/-- How a search ends that has come to an index. It asks whether the first character of the next occurrence is marked as
one of a literal, and goes on behind that character if so; there is no mark to ask for at the very end. -/
inductive Searches (text token : Text) : Nat → Finding → Prop
  | absent {start : Nat} (none : occurrence? text token start = none) : Searches text token start .absent
  | pastEnd {start index : Nat} (next : occurrence? text token start = some index)
      (unmarked : (literalMask text)[index]? = none) : Searches text token start .pastEnd
  | here {start index : Nat} (next : occurrence? text token start = some index)
      (free : (literalMask text)[index]? = some false) : Searches text token start (.at index)
  | further {start index : Nat} {finding : Finding} (next : occurrence? text token start = some index)
      (masked : (literalMask text)[index]? = some true) (rest : Searches text token (index + 1) finding) :
      Searches text token start finding

/-- Every search ends: each step leaves less of the text. -/
theorem exists_searches (text token : Text) (start : Nat) : ∃ finding, Searches text token start finding := by
  induction left : text.length - start using Nat.strong_induction_on generalizing start with
  | _ left ih =>
    cases next : occurrence? text token start with
    | none => exact ⟨_, .absent next⟩
    | some index =>
      cases mark : (literalMask text)[index]? with
      | none => exact ⟨_, .pastEnd next mark⟩
      | some masked =>
        cases masked with
        | false => exact ⟨_, .here next mark⟩
        | true =>
          have behind : start ≤ index := (isLeast_of_occurrence? next).1.1
          have inside : index < text.length := length_literalMask text ▸ (List.getElem?_eq_some_iff.mp mark).1
          obtain ⟨finding, rest⟩ := ih (text.length - (index + 1)) (by omega) (index + 1) rfl
          exact ⟨finding, .further next mark rest⟩

/-! What is found. -/

theorem findOutside_eq_at_iff (solid : token ≠ []) :
    findOutside text token start = .at index ↔ IsLeast {place | start ≤ place ∧ BareAt token text place} index := by
  rcases findOutside_cases solid text start with ⟨first, found, least⟩ | ⟨absent, none⟩
  · rw [found, Finding.at.injEq]
    exact ⟨fun same => same ▸ least, fun given => least.unique given⟩
  · rw [absent]
    exact ⟨nofun, fun given => absurd given.1.2 (none index given.1.1)⟩

theorem findOutside_eq_absent_iff (solid : token ≠ []) :
    findOutside text token start = .absent ↔ ∀ place ≥ start, ¬ BareAt token text place := by
  rcases findOutside_cases solid text start with ⟨first, found, least⟩ | ⟨absent, none⟩
  · rw [found]
    exact ⟨nofun, fun none => absurd least.1.2 (none first least.1.1)⟩
  · exact ⟨fun _ => none, fun _ => absent⟩

theorem findOutside_ne_pastEnd (solid : token ≠ []) (text : Text) (start : Nat) :
    findOutside text token start ≠ .pastEnd := by
  rcases findOutside_cases solid text start with ⟨first, found, -⟩ | ⟨absent, -⟩
  · simp [found]
  · simp [absent]

/-- Of two indices with the same places behind them a search finds the same. -/
theorem findOutside_congr (solid : token ≠ []) {other : Nat}
    (same : ∀ place, start ≤ place ∧ BareAt token text place ↔ other ≤ place ∧ BareAt token text place) :
    findOutside text token start = findOutside text token other := by
  rcases findOutside_cases solid text other with ⟨first, found, least⟩ | ⟨absent, none⟩
  · rw [found, findOutside_eq_at_iff solid]
    simpa only [same] using least
  · rw [absent, findOutside_eq_absent_iff solid]
    exact fun place behind bare => none place ((same place).mp ⟨behind, bare⟩).1 bare

/-- What the loop ends in is what is found at once. -/
theorem Searches.eq_findOutside (solid : token ≠ []) (run : Searches text token start finding) :
    finding = findOutside text token start := by
  induction run with
  | absent none =>
    refine ((findOutside_eq_absent_iff solid).mpr fun place behind bare => ?_).symm
    exact not_prefix_of_occurrence? solid none behind bare.1
  | pastEnd next unmarked =>
    rw [getElem?_literalMask_of_lt (lt_length_of_prefix_drop solid (isLeast_of_occurrence? next).1.2)] at unmarked
    cases unmarked
  | @here start index next free =>
    obtain ⟨⟨behind, begins⟩, least⟩ := isLeast_of_occurrence? next
    rw [getElem?_literalMask_of_lt (lt_length_of_prefix_drop solid begins)] at free
    refine ((findOutside_eq_at_iff solid).mpr ⟨⟨behind, begins, by simpa using free⟩, ?_⟩).symm
    exact fun place ⟨after, bare⟩ => least ⟨after, bare.1⟩
  | @further start index finding next masked rest ih =>
    obtain ⟨⟨behind, begins⟩, least⟩ := isLeast_of_occurrence? next
    rw [getElem?_literalMask_of_lt (lt_length_of_prefix_drop solid begins)] at masked
    have within : InLiteral text index := by simpa using masked
    -- No occurrence is left out: the next one begins in a literal, and there is none in front of it.
    refine ih.trans (findOutside_congr solid fun place => and_congr_left fun bare => ?_)
    constructor
    · intro after
      omega
    · intro after
      have bound : index ≤ place := least ⟨after, bare.1⟩
      have other : index ≠ place := by
        rintro rfl
        exact bare.2 within
      omega

theorem searches_iff (solid : token ≠ []) :
    Searches text token start finding ↔ finding = findOutside text token start := by
  constructor
  · exact Searches.eq_findOutside solid
  · rintro rfl
    obtain ⟨finding, run⟩ := exists_searches text token start
    exact run.eq_findOutside solid ▸ run

/-! Cuts. -/

/-- What begins outside of literals in the front of a text does so in the text. -/
theorem BareAt.of_take (solid : token ≠ []) (bare : BareAt token (text.take k) index) :
    index < k ∧ BareAt token text index := by
  have inside := lt_length_of_prefix_drop solid bare.1
  rw [List.length_take] at inside
  have before : index < k := by omega
  refine ⟨before, ?_, mt (inLiteral_take before).mpr bare.2⟩
  have begins := bare.1
  rw [List.drop_take] at begins
  exact begins.trans (List.take_prefix ..)

/-- To cut a text succeeds, and leaves what stands in front of the first leader outside of literals. -/
theorem cutComment_cases (solid : leader ≠ []) (text : Text) :
    ∃ kept, cutComment leader text = .ok kept ∧
      ((∃ index, IsLeast {place | BareAt leader text place} index ∧ kept = text.take index) ∨
        (∀ place, ¬ BareAt leader text place) ∧ kept = text) := by
  have search : findOutside text leader (0 : Nat) = findOutside text leader 0 := rfl
  rcases findOutside_cases solid text 0 with ⟨index, found, least⟩ | ⟨absent, none⟩
  · refine ⟨text.take index, by rw [cutComment, ← search, found], .inl ⟨index, ?_, rfl⟩⟩
    simpa using least
  · exact ⟨text, by rw [cutComment, ← search, absent], .inr ⟨fun place => none place (Nat.zero_le place), rfl⟩⟩

theorem cutComment_of_none (solid : leader ≠ []) (none : ∀ place, ¬ BareAt leader text place) :
    cutComment leader text = .ok text := by
  obtain ⟨kept, cut, ⟨index, ⟨bare, -⟩, -⟩ | ⟨-, rfl⟩⟩ := cutComment_cases solid text
  · exact absurd bare (none index)
  · exact cut

theorem cutComment_slashes (text : Text) : cutComment "//" text = .ok (dropComment text) := by
  have solid : ("//" : Text) ≠ [] := by simp
  have whole := findOutside_ne_pastEnd solid text 0
  unfold cutComment dropComment
  split
  · next found => rw [found]
  · next absent => rw [absent]
  · next beyond => exact absurd beyond whole

/-- For every token that is not empty the loop ends, never asks for a mark behind the text, and finds the least place
from its start on where the token begins outside of literals, or that there is none. Hence a text that is cut in front
of its comment ends at the first leader outside of literals, holds none itself, and is not cut again. -/
theorem search_exact_cut_stable :
    (∀ (text token : Text) (start : Nat), token ≠ [] →
      (∀ finding, Searches text token start finding ↔ finding = findOutside text token start) ∧
      findOutside text token start ≠ .pastEnd ∧
      (∀ index, findOutside text token start = .at index ↔
        IsLeast {place | start ≤ place ∧ BareAt token text place} index) ∧
      (findOutside text token start = .absent ↔ ∀ place ≥ start, ¬ BareAt token text place)) ∧
    (∀ text leader : Text, leader ≠ [] → ∃ kept, cutComment leader text = .ok kept ∧
      ((∃ index, IsLeast {place | BareAt leader text place} index ∧ kept = text.take index) ∨
        (∀ place, ¬ BareAt leader text place) ∧ kept = text) ∧
      (∀ place, ¬ BareAt leader kept place) ∧ cutComment leader kept = .ok kept) ∧
    ∀ text : Text, cutComment "//" text = .ok (dropComment text) := by
  refine ⟨fun text token start solid => ?_, fun text leader solid => ?_, cutComment_slashes⟩
  · exact ⟨fun finding => searches_iff solid, findOutside_ne_pastEnd solid text start,
      fun index => findOutside_eq_at_iff solid, findOutside_eq_absent_iff solid⟩
  · obtain ⟨kept, cut, first⟩ := cutComment_cases solid text
    have none : ∀ place, ¬ BareAt leader kept place := by
      rcases first with ⟨index, ⟨-, least⟩, rfl⟩ | ⟨none, rfl⟩
      · intro place bare
        obtain ⟨before, there⟩ := bare.of_take solid
        exact absurd (least there) (Nat.not_le_of_lt before)
      · exact none
    exact ⟨kept, cut, first, none, cutComment_of_none solid none⟩

/-- A literal, and behind it three quotes that backslashes escape. -/
def escapedQuotes : Text :=
  "'x'\\'\\'\\'"

/-- Three quotes with two backslashes stand there twice. The first time they begin with the quote that closes the
literal; the second one overlaps with it, and is found. -/
theorem search_exact_cut_stable_quotes :
    escapedQuotes.drop 4 ≠ [] ∧ escapedQuotes.drop 4 <+: escapedQuotes.drop 2 ∧
      InLiteral escapedQuotes 2 ∧ Searches escapedQuotes (escapedQuotes.drop 4) 0 (.at 4) ∧
      IsLeast {place | 0 ≤ place ∧ BareAt (escapedQuotes.drop 4) escapedQuotes place} 4 ∧
      cutComment (escapedQuotes.drop 4) escapedQuotes = .ok (escapedQuotes.take 4) ∧
      (∀ place, ¬ BareAt (escapedQuotes.drop 4) (escapedQuotes.take 4) place) ∧
      cutComment (escapedQuotes.drop 4) (escapedQuotes.take 4) = .ok (escapedQuotes.take 4) := by
  obtain ⟨search, cuts, -⟩ := search_exact_cut_stable
  have solid : escapedQuotes.drop 4 ≠ [] := by decide
  have found : findOutside escapedQuotes (escapedQuotes.drop 4) (0 : Nat) = .at 4 := by decide +kernel
  have cut : cutComment (escapedQuotes.drop 4) escapedQuotes = .ok (escapedQuotes.take 4) := by rfl
  obtain ⟨loop, -, least, -⟩ := search escapedQuotes (escapedQuotes.drop 4) 0 solid
  obtain ⟨kept, whole, -, none, stable⟩ := cuts escapedQuotes (escapedQuotes.drop 4) solid
  obtain rfl : kept = escapedQuotes.take 4 := Except.ok.inj (whole.symm.trans cut)
  exact ⟨solid, by decide, by decide, (loop _).mpr found.symm, (least 4).mp found, cut, none, stable⟩

end InlineCompletion.Scan
