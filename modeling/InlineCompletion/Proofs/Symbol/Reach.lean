import InlineCompletion.Context.Classify
import InlineCompletion.Proofs.Document.Lines
import InlineCompletion.Symbol.Property

/-!
How far a scan for the enclosing brace reaches. More lines above a window change nothing once the brace is
found in it, so that two windows give the same properties unless the brace is too far up for one of them.
-/

namespace InlineCompletion

/-! The line of the cursor, as a scan for the enclosing brace sees it. -/

namespace Scan

open Text

theorem seekBrace_of_plain {text : Text} (plain : ∀ c ∈ text, c ≠ closeBrace ∧ c ≠ openBrace ∧ c ≠ ';')
    (depth : Nat) : seekBrace depth text = .seeking depth := by
  induction text with
  | nil => rfl
  | cons c rest ih =>
    obtain ⟨close, opens, statement⟩ := plain c (List.mem_cons_self ..)
    unfold seekBrace
    rw [if_neg close, if_neg opens, if_neg (by simp [statement])]
    exact ih fun c member => plain c (List.mem_cons_of_mem _ member)

theorem mem_blanked {text : Text} {mask : List Bool} {c : Char}
    (member : c ∈ List.zipWith (fun c masked => if masked then ' ' else c) text mask) :
    c ∈ text ∨ c = ' ' := by
  induction text generalizing mask with
  | nil => cases member
  | cons first rest ih =>
    cases mask with
    | nil => cases member
    | cons masked more =>
      rcases List.mem_cons.mp member with rfl | member
      · cases masked with
        | true => exact Or.inr rfl
        | false => exact Or.inl (List.mem_cons_self ..)
      · exact (ih member).imp_left (List.mem_cons_of_mem _)

theorem dropComment_subset (line : Text) : dropComment line ⊆ line := by
  unfold dropComment
  split
  · exact (List.take_prefix ..).subset
  · exact List.Subset.refl _

theorem mem_codeOf {line : Text} {c : Char} (member : c ∈ codeOf line) : c ∈ line ∨ c = ' ' :=
  (mem_blanked member).imp_left fun there => dropComment_subset line there

/-- The place that a scan upwards finds is in one of its lines. -/
theorem seekBraceUp_lt {depth index column : Nat} {upwards : List Text}
    (found : seekBraceUp depth upwards = some (index, column)) : index < upwards.length := by
  induction upwards generalizing depth with
  | nil => cases found
  | cons line above ih =>
    unfold seekBraceUp at found
    split at found
    · cases found
      exact Nat.lt_succ_self _
    · cases found
    · exact Nat.lt_succ_of_lt (ih found)

/-- A line without braces and semicolons at the end of a window is passed over. -/
theorem unmatchedBrace_append {above : List Text} {line : Text}
    (plain : ∀ c ∈ line, c ≠ closeBrace ∧ c ≠ openBrace ∧ c ≠ ';') :
    unmatchedBrace (above ++ [line]) = unmatchedBrace above := by
  have coded : ∀ c ∈ (codeOf line).reverse, c ≠ closeBrace ∧ c ≠ openBrace ∧ c ≠ ';' := by
    intro c member
    rcases mem_codeOf (List.mem_reverse.mp member) with there | rfl
    · exact plain c there
    · decide
  unfold unmatchedBrace
  rw [List.reverse_append, List.reverse_singleton, List.singleton_append, seekBraceUp,
    seekBrace_of_plain coded]

/-! Windows of several sizes. -/

variable {depth index column : Nat} {upwards above window : List Text}

/-- What is found upwards is found with more lines above. -/
theorem seekBraceUp_append (found : seekBraceUp depth upwards = some (index, column)) (above : List Text) :
    seekBraceUp depth (upwards ++ above) = some (index + above.length, column) := by
  induction upwards generalizing depth with
  | nil => cases found
  | cons line rest ih =>
    rw [List.cons_append]
    unfold seekBraceUp at found ⊢
    split at found
    · cases found
      rw [List.length_append]
    · cases found
    · exact ih found

/-- What is found below the lines above is found without them. -/
theorem seekBraceUp_of_append (found : seekBraceUp depth (upwards ++ above) = some (index, column))
    (below : above.length ≤ index) :
    seekBraceUp depth upwards = some (index - above.length, column) := by
  induction upwards generalizing depth with
  | nil => exact absurd (seekBraceUp_lt found) (Nat.not_lt_of_le below)
  | cons line rest ih =>
    rw [List.cons_append] at found
    unfold seekBraceUp at found ⊢
    split at found
    · cases found
      rw [List.length_append, Nat.add_sub_cancel]
    · cases found
    · exact ih found

theorem unmatchedBrace_lt (found : unmatchedBrace window = some (index, column)) : index < window.length := by
  rw [← List.length_reverse]
  exact seekBraceUp_lt found

theorem unmatchedBrace_grow (found : unmatchedBrace window = some (index, column)) (more : List Text) :
    unmatchedBrace (more ++ window) = some (index + more.length, column) := by
  unfold unmatchedBrace
  rw [List.reverse_append, seekBraceUp_append found, List.length_reverse]

theorem unmatchedBrace_shrink {more : List Text}
    (found : unmatchedBrace (more ++ window) = some (index, column)) (below : more.length ≤ index) :
    unmatchedBrace window = some (index - more.length, column) := by
  unfold unmatchedBrace at found ⊢
  rw [List.reverse_append] at found
  rw [seekBraceUp_of_append found (by rwa [List.length_reverse]), List.length_reverse]

/-- How many lines above the last line of a window its enclosing brace stands. -/
def braceHeight? (window : List Text) : Option Nat :=
  (unmatchedBrace window).map fun brace => window.length - 1 - brace.1

end Scan

namespace ObjectLiteral

/-- In an object literal there is a brace that encloses the cursor. -/
theorem exists_brace {window : List Text} (inObject : isOpen window = true) :
    ∃ index column, Scan.unmatchedBrace window = some (index, column) := by
  unfold isOpen decideWithin at inObject
  split at inObject
  · cases inObject
  · next index column found => exact ⟨index, column, found⟩

end ObjectLiteral

namespace Property

variable {document : Document} {position : Position} {window other : Int} {index column : Nat}

theorem keysAfter_append (more lines : List Text) (index column : Nat) :
    keysAfter (more ++ lines) (index + more.length) column = keysAfter lines index column := by
  unfold keysAfter
  rw [Nat.add_comm, ← List.drop_drop, List.drop_left]

theorem existing_of_brace
    (found : Scan.unmatchedBrace (document.linesAbove position window) = some (index, column)) :
    existing document position window =
      firstOccurrences (keysAfter (document.linesAbove position window) index column) := by
  unfold existing
  simp only [found]

theorem existing_of_none (none : Scan.unmatchedBrace (document.linesAbove position window) = none) :
    existing document position window = [] := by
  unfold existing
  simp only [none]

/-- One window gives the properties of another one in which the brace is found, as long as the brace is not
too far up for it; then it gives none. -/
theorem existing_eq_of_height {height : Nat}
    (high : Scan.braceHeight? (document.linesAbove position window) = some height) (other : Int) :
    existing document position other =
      if height ≤ other.toNat then existing document position window else [] := by
  obtain ⟨⟨index, column⟩, found, rfl⟩ := Option.map_eq_some_iff.mp high
  have inside := Scan.unmatchedBrace_lt found
  rcases Int.le_total window other with narrow | wide
  · obtain ⟨more, all, -⟩ := document.linesAbove_grow position narrow
    have bound := document.length_linesAbove_le position window
    have found' := Scan.unmatchedBrace_grow found more
    rw [← all] at found'
    rw [if_pos (by omega), existing_of_brace found, existing_of_brace found', all, keysAfter_append]
  · obtain ⟨more, all, full⟩ := document.linesAbove_grow position wide
    have bound := document.length_linesAbove_le position other
    have size := congrArg List.length all
    rw [List.length_append] at size
    split
    · next near =>
      have below : more.length ≤ index := by
        by_cases none : more = []
        · rw [none]
          exact Nat.zero_le _
        · have full := full none
          omega
      obtain ⟨lower, rfl⟩ := Nat.exists_eq_add_of_le' below
      have found' := Scan.unmatchedBrace_shrink (all ▸ found) below
      rw [Nat.add_sub_cancel] at found'
      rw [existing_of_brace found, existing_of_brace found', all, keysAfter_append]
    · next far =>
      refine existing_of_none (Option.eq_none_iff_forall_ne_some.mpr fun ⟨index', column'⟩ found' => ?_)
      have found'' := Scan.unmatchedBrace_grow found' more
      rw [← all, found] at found''
      cases found''
      omega

end Property

end InlineCompletion
