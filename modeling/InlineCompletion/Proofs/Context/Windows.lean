import InlineCompletion.Proofs.Context.Introductions
import InlineCompletion.Context.Classify

/-!
Classifications of one place by windows of several sizes. More lines above a window change nothing once a scan has
found there what decides, so that a place in an object literal or in a log call stays one. Everything else is read off
the line of the cursor.
-/

namespace InlineCompletion

open Text Scan

namespace ObjectLiteral

variable {window above more : List Text} {index column : Nat}

theorem visible_of_nearestNonBlank (visible : nearestNonBlank above ≠ []) : ∃ line ∈ above, allBlank line = false := by
  by_contra none
  push Not at none
  have blank : ∀ line ∈ above, allBlank line = true := fun line member => by simpa using none line member
  have all := nearestNonBlank_append blank []
  rw [List.append_nil] at all
  exact visible all

theorem getD_above (more window : List Text) (index : Nat) :
    (more ++ window).getD (index + more.length) [] = window.getD index [] := by
  rw [List.getD_eq_getElem?_getD, List.getD_eq_getElem?_getD, List.getElem?_append_right (Nat.le_add_left ..),
    Nat.add_sub_cancel]

theorem take_above (more window : List Text) (index : Nat) :
    (more ++ window).take (index + more.length) = more ++ window.take index := by
  rw [Nat.add_comm, List.take_length_add_append]

/-- The text in front of a brace is found again with more lines above. -/
theorem introduction_append (visible : introduction window index column ≠ []) (more : List Text) :
    introduction (more ++ window) (index + more.length) column = introduction window index column := by
  unfold introduction at visible ⊢
  rw [getD_above, take_above, List.reverse_append]
  dsimp only at visible ⊢
  split
  · next none =>
    rw [if_pos none] at visible
    exact nearestNonBlank_of_visible (visible_of_nearestNonBlank visible) more.reverse
  · rfl

theorem beforeLabel_append (more : List Text) :
    beforeLabel (more ++ window) (index + more.length) column = more ++ beforeLabel window index column := by
  rw [beforeLabel, beforeLabel, getD_above, take_above, List.append_assoc]

theorem introduction_ne_nil (found : unmatchedBrace window = some (index, column)) (inObject : isOpen window = true) :
    introduction window index column ≠ [] := by
  intro none
  rw [isOpen_of_brace found, none] at inObject
  cases inObject

/-- An object literal is one with more lines above. -/
theorem isOpen_append (inObject : isOpen window = true) (more : List Text) : isOpen (more ++ window) = true := by
  -- Each bare label leaves the question to a shorter window.
  induction size : window.flatten.length using Nat.strong_induction_on generalizing window with
  | _ size ih =>
    obtain ⟨index, column, found⟩ := exists_brace inObject
    have same := introduction_append (introduction_ne_nil found inObject) more
    rw [isOpen_of_brace found] at inObject
    rw [isOpen_of_brace (unmatchedBrace_grow found more), same]
    split
    · next label =>
      rw [if_pos label, Bool.and_eq_true] at inObject
      rw [inObject.1, Bool.true_and, beforeLabel_append]
      exact ih _ (size ▸ beforeLabel_shorter found) inObject.2 rfl
    · next label => rwa [if_neg label] at inObject

end ObjectLiteral

namespace Call

variable {text call : Text} {above window : List Text}

theorem openFrom_go_append (found : openFrom.go text above = some call) (more : List Text) :
    openFrom.go text (above ++ more) = some call := by
  induction above generalizing text with
  | nil => cases found
  | cons line above ih =>
    rw [List.cons_append]
    simp only [openFrom.go] at found ⊢
    split at found
    · cases found
    · next goesOn =>
      rw [if_neg goesOn]
      split at found
      · next isOpen => rwa [if_pos isOpen]
      · next closed =>
        rw [if_neg closed]
        split at found
        · cases found
        · next inside =>
          rw [if_neg inside]
          exact ih found

/-- The call that is open at the end of a window is found again with more lines above. -/
theorem openFrom_append (found : openFrom text above = some call) (more : List Text) :
    openFrom text (above ++ more) = some call := by
  simp only [openFrom] at found ⊢
  split
  · next isOpen => rwa [if_pos isOpen] at found
  · next closed =>
    rw [if_neg closed] at found
    exact openFrom_go_append found more

theorem isLogCall_append (inCall : isLogCall window = true) (more : List Text) : isLogCall (more ++ window) = true := by
  cases window using List.reverseRecOn with
  | nil => cases inCall
  | append_singleton front typed =>
    rw [isLogCall_concat] at inCall
    rw [← List.append_assoc, isLogCall_concat, List.reverse_append]
    cases found : openFrom typed front.reverse with
    | none => simp [found] at inCall
    | some call => rwa [openFrom_append found, ← found]

end Call

/-- With more lines above, a place in an object literal or in a log call is still in one, and all other facts are
the same; so a place whose suggestions are not kept does not become one where they are. -/
theorem classify_widens {window wider : Int} (le : window ≤ wider) (document : Document) (position : Position) :
    let narrow := classify document position window
    let wide := classify document position wider
    (narrow.inObjectLiteral = true → wide.inObjectLiteral = true) ∧ (narrow.inLogCall = true → wide.inLogCall = true) ∧
      wide = { narrow with inObjectLiteral := wide.inObjectLiteral, inLogCall := wide.inLogCall } ∧
      (narrow.isVolatile = true → wide.isVolatile = true) := by
  intro narrow wide
  obtain ⟨more, grown, -⟩ := document.linesAbove_grow position le
  have object : narrow.inObjectLiteral = true → wide.inObjectLiteral = true := fun inObject => by
    show ObjectLiteral.isOpen (document.linesAbove position wider) = true
    rw [grown]
    exact ObjectLiteral.isOpen_append inObject more
  have call : narrow.inLogCall = true → wide.inLogCall = true := fun inCall => by
    show Call.isLogCall (document.linesAbove position wider) = true
    rw [grown]
    exact Call.isLogCall_append inCall more
  refine ⟨object, call, rfl, fun volatile => ?_⟩
  simp only [Classification.isVolatile, Bool.or_eq_true] at volatile ⊢
  exact volatile.imp_left (Or.imp object call)

/-- A log call in an object literal, whose brace is one line further up. -/
def loggedObject : Document :=
  ⟨["const a = \x7b", "  b: print(", "    "], "app.ts", "ts", "typescript"⟩

/-- With one line above the place is in a log call, with two lines in an object literal too. -/
theorem classify_widens_loggedObject :
    (1 : Int) ≤ 2 ∧
      classify loggedObject ⟨2, 4⟩ 1 = { inLogCall := true } ∧
      classify loggedObject ⟨2, 4⟩ 2 = { inLogCall := true, inObjectLiteral := true } ∧
      (classify loggedObject ⟨2, 4⟩ 2).isVolatile = true := by
  have le : (1 : Int) ≤ 2 := by decide
  have narrow : classify loggedObject ⟨2, 4⟩ 1 = { inLogCall := true } := by decide +kernel
  have wide : classify loggedObject ⟨2, 4⟩ 2 = { inLogCall := true, inObjectLiteral := true } := by decide +kernel
  exact ⟨le, narrow, wide, (classify_widens le loggedObject ⟨2, 4⟩).2.2.2 (by rw [narrow]; rfl)⟩

end InlineCompletion
