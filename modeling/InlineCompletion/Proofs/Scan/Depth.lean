import InlineCompletion.Scan.Bracket
import Mathlib.Data.List.Infix

/-!
What a scan upwards for the enclosing brace has passed over. Behind the brace that it finds as many braces are
closed as are opened, and up to no place there are more of them closed than opened, so that the difference is
the number of braces around that place.
-/

namespace InlineCompletion.Scan

open Text

/-- How many more braces are opened than closed. -/
def depth (code : Text) : Int :=
  code.count openBrace - code.count closeBrace

/-- However much is left out in front, no more braces than these are opened. -/
def OpensAtMost (limit : Int) (code : Text) : Prop :=
  ∀ rest, rest <:+ code → depth rest ≤ limit

variable {front rest code : Text} {limit : Int} {outer deeper index column : Nat} {window upwards : List Text}

theorem depth_append (front rest : Text) : depth (front ++ rest) = depth front + depth rest := by
  simp only [depth, List.count_append]
  omega

theorem OpensAtMost.append (first : OpensAtMost (limit - depth rest) front) (last : OpensAtMost limit rest) :
    OpensAtMost limit (front ++ rest) := by
  intro tail suffix
  rcases List.suffix_or_suffix_of_suffix suffix (List.suffix_append front rest) with inside | ⟨more, rfl⟩
  · exact last tail inside
  · obtain ⟨others, split⟩ := suffix
    rw [← List.append_assoc] at split
    have bound := first more ⟨others, List.append_cancel_right split⟩
    rw [depth_append]
    omega

theorem opensAtMost_nil (outer : Nat) : OpensAtMost outer [] := by
  intro rest suffix
  simp [List.suffix_nil.mp suffix, depth]

/-- One character either ends the scan or changes how many braces have to be opened yet. -/
theorem seekBrace_cons (outer : Nat) (c : Char) (rest : Text) :
    (outer = 0 ∧ (c = openBrace ∧ seekBrace outer (c :: rest) = .found rest.length ∨
        seekBrace outer (c :: rest) = .stopped)) ∨
      ∃ next : Nat, next = outer - depth [c] ∧ seekBrace outer (c :: rest) = seekBrace next rest := by
  by_cases close : c = closeBrace
  · subst close
    exact .inr ⟨outer + 1, by simp [depth, closeBrace, openBrace], by simp [seekBrace]⟩
  by_cases opens : c = openBrace
  · subst opens
    cases outer with
    | zero => exact .inl ⟨rfl, .inl ⟨rfl, by simp [seekBrace, close]⟩⟩
    | succ outer => exact .inr ⟨outer, by simp [depth, closeBrace, openBrace], by simp [seekBrace, close]⟩
  by_cases ended : c = ';' ∧ outer = 0
  · obtain ⟨rfl, rfl⟩ := ended
    exact .inl ⟨rfl, .inr rfl⟩
  · exact .inr ⟨outer, by simp [depth, close, opens], by rw [seekBrace.eq_def]; simp [close, opens, ended]⟩

theorem OpensAtMost.concat {next : Nat} {c : Char} (step : (next : Int) = outer - depth [c])
    (first : OpensAtMost next code) : OpensAtMost outer (code ++ [c]) := by
  refine OpensAtMost.append (step ▸ first) fun rest suffix => ?_
  rcases List.suffix_cons_iff.mp suffix with rfl | none
  · omega
  · exact opensAtMost_nil outer rest none

/-- A line that is passed over. -/
theorem depth_of_seeking {read : Text} (passed : seekBrace outer read = .seeking deeper) :
    deeper = outer - depth read.reverse ∧ OpensAtMost outer read.reverse := by
  induction read generalizing outer with
  | nil =>
    cases passed
    exact ⟨by simp [depth], opensAtMost_nil _⟩
  | cons c read ih =>
    rw [List.reverse_cons, depth_append]
    rcases seekBrace_cons outer c read with ⟨-, ⟨-, found⟩ | stopped⟩ | ⟨next, step, same⟩
    · cases found.symm.trans passed
    · cases stopped.symm.trans passed
    · obtain ⟨left, bound⟩ := ih (same ▸ passed)
      exact ⟨by omega, .concat step bound⟩

/-- The line in which the brace is found, behind that. -/
theorem depth_of_found {read : Text} (found : seekBrace outer read = .found column) :
    read.reverse[column]? = some openBrace ∧ depth (read.reverse.drop (column + 1)) = outer ∧
      OpensAtMost outer (read.reverse.drop (column + 1)) := by
  induction read generalizing outer with
  | nil => cases found
  | cons c read ih =>
    rcases seekBrace_cons outer c read with ⟨rfl, ⟨rfl, here⟩ | stopped⟩ | ⟨next, step, same⟩
    · cases here.symm.trans found
      have none : (openBrace :: read).reverse.drop (read.length + 1) = [] := List.drop_of_length_le (by simp)
      rw [none]
      exact ⟨by simp, rfl, opensAtMost_nil 0⟩
    · cases stopped.symm.trans found
    · obtain ⟨brace, left, bound⟩ := ih (same ▸ found)
      have inside : column + 1 ≤ read.reverse.length := (List.getElem?_eq_some_iff.mp brace).1
      rw [List.reverse_cons, List.getElem?_append_left inside, List.drop_append_of_le_length inside, depth_append]
      exact ⟨brace, by omega, .concat step bound⟩

/-- The code from behind a brace to the end of the window. -/
def codeBehind (window : List Text) (index column : Nat) : Text :=
  match window.drop index with
  | [] => []
  | line :: below => (codeOf line).drop (column + 1) ++ (below.map codeOf).flatten

theorem codeBehind_concat {line : Text} (inside : index < window.length) :
    codeBehind (window ++ [line]) index column = codeBehind window index column ++ codeOf line := by
  unfold codeBehind
  rw [List.drop_append_of_le_length (Nat.le_of_lt inside), List.drop_eq_getElem_cons inside, List.cons_append]
  simp

theorem depth_of_seekBraceUp (found : seekBraceUp outer upwards = some (index, column)) :
    (∃ line, upwards.reverse[index]? = some line ∧ (codeOf line)[column]? = some openBrace) ∧
      depth (codeBehind upwards.reverse index column) = outer ∧
      OpensAtMost outer (codeBehind upwards.reverse index column) := by
  induction upwards generalizing outer with
  | nil => cases found
  | cons line above ih =>
    unfold seekBraceUp at found
    rw [List.reverse_cons]
    split at found
    · next here =>
      cases found
      have behind : codeBehind (above.reverse ++ [line]) above.length column = (codeOf line).drop (column + 1) := by
        simp [codeBehind]
      have inLine := depth_of_found here
      rw [List.reverse_reverse] at inLine
      rw [behind]
      exact ⟨⟨line, by simp, inLine.1⟩, inLine.2⟩
    · cases found
    · next deeper passed =>
      obtain ⟨⟨other, there, brace⟩, left, bound⟩ := ih found
      have inside := (List.getElem?_eq_some_iff.mp there).1
      obtain ⟨step, low⟩ := depth_of_seeking passed
      rw [List.reverse_reverse] at step low
      rw [codeBehind_concat inside, depth_append, List.getElem?_append_left inside]
      exact ⟨⟨other, there, brace⟩, by omega, .append (step ▸ bound) low⟩

/-- At the place of the enclosing brace there is one in the code; behind it every brace is closed again, and none
is closed that was not opened there. -/
theorem balanced_of_unmatchedBrace (found : unmatchedBrace window = some (index, column)) :
    (∃ line, window[index]? = some line ∧ (codeOf line)[column]? = some openBrace) ∧
      depth (codeBehind window index column) = 0 ∧
      ∀ front, front <+: codeBehind window index column → 0 ≤ depth front := by
  obtain ⟨brace, whole, bound⟩ := depth_of_seekBraceUp found
  rw [List.reverse_reverse] at brace whole bound
  refine ⟨brace, whole, ?_⟩
  rintro front ⟨rest, split⟩
  have := bound rest ⟨front, split⟩
  rw [← split, depth_append] at whole
  omega

end InlineCompletion.Scan
