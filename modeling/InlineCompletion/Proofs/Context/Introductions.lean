import InlineCompletion.Proofs.Context.Enclosing
import InlineCompletion.Proofs.Scan.Comments

/-!
Comments and the text in front of a brace. A brace that stands alone on its line is introduced by the nearest line
above that is not blank, and this line is read with its comment. So a comment can be seen exactly behind a line over
such a brace, if the scan outwards gets as far as that brace.
-/

namespace InlineCompletion.ObjectLiteral

open Text Scan

/-- A line, perhaps blank, with nothing but white space between it and a brace below. -/
structure StandsOver (window : List Text) (k index column : Nat) : Prop where
  above : k < index
  alone : allBlank ((window.getD index []).take column) = true
  blank : ∀ line ∈ (window.take index).drop (k + 1), allBlank line = true

/-- What is seen on this line decides: it stands over the enclosing brace, or over one further out that all braces
before it leave the question to, because they have a bare label in front. -/
inductive Introduces (k : Nat) : List Text → Prop where
  | here {window : List Text} {index column : Nat} (found : unmatchedBrace window = some (index, column))
    (stands : StandsOver window k index column) : Introduces k window
  | outward {window : List Text} {index column : Nat} (found : unmatchedBrace window = some (index, column))
    (bare : isBareDefault (introduction window index column) = true)
    (further : Introduces k (beforeLabel window index column)) : Introduces k window

variable {window above below : List Text} {k index column : Nat} {line : Text} {f : Text → Text}

theorem nearestNonBlank_append (blank : ∀ line ∈ above, allBlank line = true) (below : List Text) :
    nearestNonBlank (above ++ below) = nearestNonBlank below := by
  induction above with
  | nil => rfl
  | cons line above ih =>
    rw [List.cons_append, nearestNonBlank, if_pos (blank line (List.mem_cons_self ..))]
    exact ih fun other member => blank other (List.mem_cons_of_mem _ member)

theorem nearestNonBlank_of_visible (visible : ∃ line ∈ above, allBlank line = false) (below : List Text) :
    nearestNonBlank (above ++ below) = nearestNonBlank above := by
  induction above with
  | nil => simp at visible
  | cons line above ih =>
    rw [List.cons_append, nearestNonBlank, nearestNonBlank]
    split
    · next blank =>
      obtain ⟨other, member, seen⟩ := visible
      rcases List.mem_cons.mp member with rfl | member
      · rw [blank] at seen
        cases seen
      · exact ih ⟨other, member, seen⟩
    · rfl

/-! A window with one of its lines changed. -/

theorem modify_append_of_lt {α : Type} {l : List α} (lt : k < l.length) (f : α → α) (more : List α) :
    (l ++ more).modify k f = l.modify k f ++ more := by
  rw [List.modify_eq_take_cons_drop lt, List.modify_eq_take_cons_drop (by simp; omega)]
  simp [List.take_append_of_le_length (Nat.le_of_lt lt), List.drop_append_of_le_length lt, List.getElem_append_left lt]

theorem getElem?_beforeLabel (above : k < index) (inside : index < window.length) (column : Nat) :
    (beforeLabel window index column)[k]? = window[k]? := by
  have short : k < (window.take index).length := by simp; omega
  rw [beforeLabel, List.getElem?_append_left short, List.getElem?_take_of_lt above]

theorem lt_of_beforeLabel (short : k + 1 < (beforeLabel window index column).length) : k < index := by
  simp only [beforeLabel, List.length_append, List.length_take, List.length_singleton] at short
  omega

theorem take_modify_of_le (le : index ≤ k) (f : Text → Text) :
    (window.modify k f).take index = window.take index := by
  rw [List.take_modify]
  exact List.modify_eq_self (Nat.le_trans (List.length_take_le ..) le)

/-- What stands on the line in front of the brace is left, if only what is behind it changes. -/
theorem front_modify (kept : ∀ line, window[k]? = some line → k = index → (f line).take column = line.take column) :
    ((window.modify k f).getD index []).take column = (window.getD index []).take column := by
  rw [List.getD_eq_getElem?_getD, List.getD_eq_getElem?_getD, List.getElem?_modify]
  by_cases here : k = index
  · subst here
    cases given : window[k]? with
    | none => rfl
    | some line => simpa using kept line given rfl
  · simp [here]

theorem beforeLabel_modify_of_lt (above : k < index) (inside : index < window.length) (f : Text → Text)
    (column : Nat) :
    beforeLabel (window.modify k f) index column = (beforeLabel window index column).modify k f := by
  have short : k < (window.take index).length := by simp; omega
  have same : (window.modify k f).getD index [] = window.getD index [] := by
    simp [List.getD_eq_getElem?_getD, Nat.ne_of_lt above]
  rw [beforeLabel, beforeLabel, same, List.take_modify, modify_append_of_lt short]

theorem beforeLabel_modify_of_le (le : index ≤ k)
    (kept : ∀ line, window[k]? = some line → k = index → (f line).take column = line.take column) :
    beforeLabel (window.modify k f) index column = beforeLabel window index column := by
  rw [beforeLabel, beforeLabel, front_modify kept, take_modify_of_le le]

/-- The lines between two others, below the one that is changed. -/
theorem between_modify (window : List Text) (k index : Nat) (f : Text → Text) :
    ((window.modify k f).take index).drop (k + 1) = (window.take index).drop (k + 1) := by
  rw [List.take_modify, List.drop_modify_of_lt _ _ _ _ (Nat.lt_succ_self k)]

theorem take_eq_append_between (window : List Text) (above : k < index) :
    window.take index = window.take (k + 1) ++ (window.take index).drop (k + 1) := by
  conv_lhs => rw [← List.take_append_drop (k + 1) (window.take index), List.take_take, Nat.min_eq_left above]

/-- Behind a line that does not stand over a brace a change cannot be seen in front of this brace. -/
theorem introduction_modify (apart : ¬ StandsOver window k index column)
    (kept : ∀ line, window[k]? = some line → k = index → (f line).take column = line.take column) :
    introduction (window.modify k f) index column = introduction window index column := by
  unfold introduction
  rw [front_modify kept]
  dsimp only
  split
  · next none =>
    by_cases above : k < index
    · have alone : allBlank ((window.getD index []).take column) = true := by
        rw [← allBlank_trimRight, List.isEmpty_iff.mp none]
        rfl
      have visible : ∃ line ∈ ((window.take index).drop (k + 1)).reverse, allBlank line = false := by
        by_contra none
        push Not at none
        exact apart ⟨above, alone, fun line member => by simpa using none line (List.mem_reverse.mpr member)⟩
      rw [take_eq_append_between _ above, take_eq_append_between window above, between_modify, List.reverse_append,
        List.reverse_append, nearestNonBlank_of_visible visible, nearestNonBlank_of_visible visible]
    · rw [take_modify_of_le (Nat.le_of_not_lt above)]
  · rfl

/-- The line that stands over a brace introduces it, once there is something to be seen on it. -/
theorem introduction_of_standsOver (stands : StandsOver window k index column) (given : window[k]? = some line)
    (visible : allBlank (f line) = false) :
    introduction (window.modify k f) index column = trim (f line) := by
  obtain ⟨inside, rfl⟩ := List.getElem?_eq_some_iff.mp given
  have here : trimRight (((window.modify k f).getD index []).take column) = [] := by
    rw [front_modify fun _ _ same => absurd same (Nat.ne_of_lt stands.above)]
    simpa [trimRight, dropTrailing, allBlank] using stands.alone
  have upTo : (window.modify k f).take (k + 1) = window.take k ++ [f window[k]] := by
    rw [List.modify_eq_take_cons_drop inside, List.append_cons]
    exact List.take_left' (by simp; omega)
  have blank : ∀ line ∈ ((window.take index).drop (k + 1)).reverse, allBlank line = true :=
    fun line member => stands.blank line (List.mem_reverse.mp member)
  unfold introduction
  rw [here]
  dsimp only [List.isEmpty_nil]
  rw [if_pos rfl, take_eq_append_between _ stands.above, between_modify, List.reverse_append,
    nearestNonBlank_append blank, upTo, List.reverse_append, List.reverse_singleton, List.singleton_append,
    nearestNonBlank, if_neg (by simp [visible])]

/-! Comments behind one of the lines. -/

theorem allBlank_withComment (text line : Text) : allBlank (withComment "//" text line) = false := by
  have solid : isBlank '/' = false := rfl
  simp [allBlank, withComment, solid]

/-- The brace stands in front of the comment. -/
theorem withComment_front (found : unmatchedBrace window = some (index, column)) (k : Nat) (leader text : Text) :
    ∀ line, window[k]? = some line → k = index → (withComment leader text line).take column = line.take column := by
  rintro line given rfl
  obtain ⟨other, same, inside⟩ := exists_line_of_brace found
  obtain rfl := Option.some_inj.mp (given.symm.trans same)
  exact List.take_append_of_le_length (Nat.le_of_lt inside)

theorem Introduces.lt (introduces : Introduces k window) : k + 1 < window.length := by
  induction introduces with
  | here found stands => exact Nat.lt_of_le_of_lt stands.above (unmatchedBrace_lt found)
  | outward found bare further ih => exact Nat.lt_of_le_of_lt (lt_of_beforeLabel ih) (unmatchedBrace_lt found)

/-- Behind a line that introduces no brace, no comment can be seen. -/
theorem isOpen_withComment (given : window[k]? = some line) (takes : TakesComment "//" line)
    (apart : ¬ Introduces k window) (text : Text) : isOpen (window.modify k (withComment "//" text)) = isOpen window := by
  -- The scan outwards makes the window shorter; a line above the brace is still there, one further down is gone.
  induction size : window.flatten.length using Nat.strong_induction_on generalizing window with
  | _ size ih =>
    have brace := unmatchedBrace_withComment given takes text
    cases found : unmatchedBrace window with
    | none => rw [isOpen_of_none found, isOpen_of_none (brace.trans found)]
    | some place =>
      obtain ⟨index, column⟩ := place
      have kept := withComment_front found k "//" text
      rw [isOpen_of_brace found, isOpen_of_brace (brace.trans found),
        introduction_modify (fun stands => apart (.here found stands)) kept]
      split
      · cases bare : isBareDefault (introduction window index column) with
        | false => rfl
        | true =>
          rw [Bool.true_and, Bool.true_and]
          by_cases above : k < index
          · have inside := unmatchedBrace_lt found
            rw [beforeLabel_modify_of_lt above inside]
            exact ih _ (size ▸ beforeLabel_shorter found) ((getElem?_beforeLabel above inside column).trans given)
              (fun further => apart (.outward found bare further)) rfl
          · rw [beforeLabel_modify_of_le (Nat.le_of_not_lt above) kept]
      · rfl

/-- A comment of one character, as a scan sees it that reads the line with its comment. -/
theorem trim_withComment {c : Char} (solid : isBlank c = false) (line : Text) :
    trim (withComment "//" [c] line) = trimLeft (withComment "//" [] line) ++ [c] := by
  have whole : withComment "//" [c] line = withComment "//" [] line ++ [c] := by simp [withComment]
  rw [trim, whole, trimLeft_append (allBlank_withComment [] line), trimRight_append (by simp [allBlank, solid])]
  exact congrArg _ (dropTrailing_eq (by simp [solid]))

theorem isCaseLabel_concat {c : Char} (solid : isBlank c = false) (other : c ≠ ':') (front : Text) :
    isCaseLabel (front ++ [c]) = false := by
  by_contra label
  have same (text : Text) {d : Char} (ends : text ++ [d] <:+ front ++ [c]) : d = c := by
    obtain ⟨more, split⟩ := ends
    rw [← List.append_assoc] at split
    exact List.singleton_inj.mp (List.append_inj' split rfl).2
  rcases colon_of_isCaseLabel (Bool.not_eq_false _ ▸ label) with colon | newline
  · exact other (same [] colon).symm
  · have blank : isBlank c = true := same [':'] newline ▸ rfl
    rw [solid] at blank
    cases blank

theorem endsWithAny_concat (front : Text) (c : Char) (tails : List Text) :
    endsWithAny (front ++ [c]) tails = tails.any fun tail => tail.reverse.isPrefixOf (c :: front.reverse) := by
  refine congrArg tails.any (funext fun tail => ?_)
  rw [endsWith, List.isSuffixOf, List.reverse_append, List.reverse_singleton, List.singleton_append]

/-- Over the enclosing brace, a comment of one character is read as the text in front of the brace. -/
theorem isOpen_of_standsOver (found : unmatchedBrace window = some (index, column))
    (stands : StandsOver window k index column) (given : window[k]? = some line) (takes : TakesComment "//" line)
    {c : Char} (solid : isBlank c = false) (other : c ≠ ':') :
    isOpen (window.modify k (withComment "//" [c])) =
      endsWithAny (trimLeft (withComment "//" [] line) ++ [c]) introducers := by
  have brace := unmatchedBrace_withComment given takes [c]
  rw [isOpen_of_brace (brace.trans found), introduction_of_standsOver stands given (allBlank_withComment [c] line),
    trim_withComment solid, if_neg (by simp [isCaseLabel_concat solid other])]

/-- So it is over a brace further out, if all before that leave the question to it. -/
theorem isOpen_of_introduces (introduces : Introduces k window) (given : window[k]? = some line)
    (takes : TakesComment "//" line) {c : Char} (solid : isBlank c = false) (other : c ≠ ':') :
    isOpen (window.modify k (withComment "//" [c])) =
      endsWithAny (trimLeft (withComment "//" [] line) ++ [c]) introducers := by
  induction introduces with
  | here found stands => exact isOpen_of_standsOver found stands given takes solid other
  | @outward window index column found bare further ih =>
    by_cases stands : StandsOver window k index column
    · exact isOpen_of_standsOver found stands given takes solid other
    · have inside := unmatchedBrace_lt found
      have above := lt_of_beforeLabel further.lt
      have brace := unmatchedBrace_withComment given takes [c]
      rw [isOpen_of_brace (brace.trans found), introduction_modify stands (withComment_front found k "//" [c]),
        if_pos (isCaseLabel_of_isBareDefault bare), bare, Bool.true_and, beforeLabel_modify_of_lt above inside]
      exact ih ((getElem?_beforeLabel above inside column).trans given)

/-- No comment behind a line can be seen exactly if the line introduces no brace. -/
theorem isOpen_withComment_iff (given : window[k]? = some line) (takes : TakesComment "//" line) :
    (∀ text, isOpen (window.modify k (withComment "//" text)) = isOpen window) ↔ ¬ Introduces k window := by
  constructor
  · intro unseen introduces
    have equals : isOpen (window.modify k (withComment "//" ['='])) = true := by
      rw [isOpen_of_introduces introduces given takes rfl (by decide), endsWithAny_concat]
      rfl
    have letter : isOpen (window.modify k (withComment "//" ['x'])) = false := by
      rw [isOpen_of_introduces introduces given takes rfl (by decide), endsWithAny_concat]
      rfl
    cases equals.symm.trans ((unseen ['=']).trans ((unseen ['x']).symm.trans letter))
  · intro apart text
    exact isOpen_withComment given takes apart text

end InlineCompletion.ObjectLiteral
