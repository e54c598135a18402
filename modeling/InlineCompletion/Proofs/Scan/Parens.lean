import InlineCompletion.Proofs.Scan.Literals
import Mathlib.Data.List.Infix

/-!
Parentheses outside of literals. They match where none is closed before it was opened and all are closed in the
end. White space and semicolons around a text do not matter for that, and where the text begins and ends with a
parenthesis, what stands between the two matches exactly if they belong together.
-/

namespace InlineCompletion.Scan

open Text Standing

/-- How many more parentheses are opened than closed by the text read from here on. -/
def Standing.parens (standing : Standing) (text : Text) : Int :=
  (standing.code text).count '(' - (standing.code text).count ')'

/-- How many more parentheses are opened than closed outside of literals. -/
def parenDepth (text : Text) : Int :=
  (blankLiterals text).count '(' - (blankLiterals text).count ')'

/-- Outside of literals no parenthesis is closed before it was opened, and all are closed in the end. -/
structure ParensMatch (text : Text) : Prop where
  whole : parenDepth text = 0
  front : ∀ front rest, text = front ++ rest → 0 ≤ parenDepth front

instance : DecidablePred ParensMatch := fun text =>
  decidable_of_iff (parenDepth text = 0 ∧ ∀ front ∈ text.inits, 0 ≤ parenDepth front)
    ⟨fun ⟨whole, fronts⟩ => ⟨whole, fun front rest split => fronts front ((List.mem_inits ..).mpr ⟨rest, split.symm⟩)⟩,
      fun given => ⟨given.whole, fun front member =>
        have ⟨rest, split⟩ := (List.mem_inits ..).mp member
        given.front front rest split.symm⟩⟩

/-- White space, and what ends a statement. -/
def isFiller (c : Char) : Bool :=
  isBlank c || c = ';'

variable {text front rest lead core tail inner : Text} {c : Char} {standing : Standing}

theorem parenDepth_eq (text : Text) : parenDepth text = outside.parens text := by
  unfold parenDepth parens
  rw [blankLiterals_eq]

theorem parens_append (standing : Standing) (front rest : Text) :
    standing.parens (front ++ rest) = standing.parens front + (standing.through front).parens rest := by
  simp only [parens, code_append, List.count_append]
  omega

theorem parens_of_plain (plain : ∀ c ∈ text, isQuote c = false) (free : standing.quote = none) :
    standing.parens text = text.count '(' - text.count ')' := by
  unfold parens
  rw [code_of_plain plain free]

/-- Behind a text that leaves no literal open, all parentheses count up to the next quote. -/
theorem parenDepth_append_of_plain (closed : openQuote front = none) (plain : ∀ c ∈ rest, isQuote c = false) :
    parenDepth (front ++ rest) = parenDepth front + (rest.count '(' - rest.count ')') := by
  rw [parenDepth_eq, parenDepth_eq, parens_append, parens_of_plain plain (openQuote_eq front ▸ closed)]

/-- So do all those before the first quote, if there is no backslash before it either. -/
theorem parenDepth_append_of_lead (plain : ∀ c ∈ front, isQuote c = false ∧ c ≠ backslash) :
    parenDepth (front ++ rest) = (front.count '(' - front.count ')') + parenDepth rest := by
  rw [parenDepth_eq, parenDepth_eq, parens_append, through_of_plain plain,
    parens_of_plain (fun c member => (plain c member).1) rfl]

/-! Fillers. -/

theorem plain_of_isFiller (filler : isFiller c = true) : isQuote c = false ∧ c ≠ backslash ∧ c ≠ '(' ∧ c ≠ ')' := by
  have odd : ∀ d ∈ [singleQuote, doubleQuote, backtick, backslash, '(', ')'], isFiller d = false :=
    forall_mem_of_all rfl
  have other (d : Char) (given : d ∈ [singleQuote, doubleQuote, backtick, backslash, '(', ')']) : c ≠ d := by
    rintro rfl
    cases (odd c given).symm.trans filler
  simp [isQuote, other]

theorem count_filler (fillers : ∀ c ∈ text, isFiller c = true) : text.count '(' = 0 ∧ text.count ')' = 0 := by
  refine ⟨List.count_eq_zero.mpr fun member => ?_, List.count_eq_zero.mpr fun member => ?_⟩
  · exact (plain_of_isFiller (fillers _ member)).2.2.1 rfl
  · exact (plain_of_isFiller (fillers _ member)).2.2.2 rfl

theorem parenDepth_lead (fillers : ∀ c ∈ lead, isFiller c = true) (text : Text) :
    parenDepth (lead ++ text) = parenDepth text := by
  obtain ⟨opening, closing⟩ := count_filler fillers
  rw [parenDepth_append_of_lead fun c member =>
    have given := plain_of_isFiller (fillers c member)
    ⟨given.1, given.2.1⟩]
  omega

theorem parenDepth_tail (closed : openQuote text = none) (fillers : ∀ c ∈ tail, isFiller c = true) :
    parenDepth (text ++ tail) = parenDepth text := by
  obtain ⟨opening, closing⟩ := count_filler fillers
  rw [parenDepth_append_of_plain closed fun c member => (plain_of_isFiller (fillers c member)).1]
  omega

theorem openQuote_fillers (leading : ∀ c ∈ lead, isFiller c = true) (trailing : ∀ c ∈ tail, isFiller c = true) :
    openQuote (lead ++ (core ++ tail)) = openQuote core := by
  rw [openQuote_append_of_lead fun c member =>
    have given := plain_of_isFiller (leading c member)
    ⟨given.1, given.2.1⟩]
  exact openQuote_append_of_plain fun c member => (plain_of_isFiller (trailing c member)).1

theorem parenDepth_fillers (closed : openQuote core = none) (leading : ∀ c ∈ lead, isFiller c = true)
    (trailing : ∀ c ∈ tail, isFiller c = true) : parenDepth (lead ++ (core ++ tail)) = parenDepth core := by
  rw [parenDepth_lead leading, parenDepth_tail closed trailing]

/-- Fillers around a text do not matter. -/
theorem parensMatch_fillers (closed : openQuote core = none) (leading : ∀ c ∈ lead, isFiller c = true)
    (trailing : ∀ c ∈ tail, isFiller c = true) : ParensMatch (lead ++ (core ++ tail)) ↔ ParensMatch core := by
  have same := parenDepth_fillers closed leading trailing
  constructor
  · intro nested
    refine ⟨same ▸ nested.whole, fun front rest split => ?_⟩
    have bound := nested.front (lead ++ front) (rest ++ tail) (by simp [split])
    rwa [parenDepth_lead leading] at bound
  · intro nested
    refine ⟨same.trans nested.whole, fun front rest split => ?_⟩
    -- The front ends in what leads, in the core or in what trails.
    rcases List.append_eq_append_iff.mp split with ⟨more, rfl, inside⟩ | ⟨more, rfl, -⟩
    · rw [parenDepth_lead leading]
      rcases List.append_eq_append_iff.mp inside with ⟨behind, rfl, last⟩ | ⟨behind, rfl, -⟩
      · rw [parenDepth_tail closed fun c member => trailing c (last ▸ List.mem_append_left rest member)]
        exact Int.le_of_eq nested.whole.symm
      · exact nested.front more behind rfl
    · have none := parenDepth_lead (fun c member => leading c (List.mem_append_left more member)) []
      rw [List.append_nil] at none
      exact Int.le_of_eq none.symm

/-- White space is filler. -/
theorem exists_trim_fillers (text : Text) : ∃ lead tail, text = lead ++ (trim text ++ tail) ∧
    (∀ c ∈ lead, isFiller c = true) ∧ ∀ c ∈ tail, isFiller c = true := by
  obtain ⟨lead, tail, whole, leading, trailing⟩ := exists_trim text
  exact ⟨lead, tail, whole, fun c member => by simp [isFiller, leading c member],
    fun c member => by simp [isFiller, trailing c member]⟩

theorem openQuote_trim (text : Text) : openQuote (trim text) = openQuote text := by
  obtain ⟨lead, tail, whole, leading, trailing⟩ := exists_trim_fillers text
  conv_rhs => rw [whole]
  exact (openQuote_fillers leading trailing).symm

theorem parenDepth_trim (closed : openQuote text = none) : parenDepth (trim text) = parenDepth text := by
  obtain ⟨lead, tail, whole, leading, trailing⟩ := exists_trim_fillers text
  conv_rhs => rw [whole]
  exact (parenDepth_fillers (openQuote_trim text ▸ closed) leading trailing).symm

theorem parensMatch_trim (closed : openQuote text = none) : ParensMatch (trim text) ↔ ParensMatch text := by
  obtain ⟨lead, tail, whole, leading, trailing⟩ := exists_trim_fillers text
  conv_rhs => rw [whole]
  exact (parensMatch_fillers (openQuote_trim text ▸ closed) leading trailing).symm

/-! A pair of parentheses. -/

theorem parenDepth_cons_open (text : Text) : parenDepth ('(' :: text) = 1 + parenDepth text := by
  rw [← List.singleton_append, parenDepth_append_of_lead (forall_mem_of_all rfl)]
  rfl

theorem openQuote_inner (inner : Text) : openQuote ('(' :: (inner ++ [')'])) = openQuote inner := by
  rw [← List.singleton_append, openQuote_append_of_lead (forall_mem_of_all rfl),
    openQuote_append_of_plain (forall_mem_of_all rfl)]

theorem parenDepth_inner (closed : openQuote inner = none) :
    parenDepth ('(' :: (inner ++ [')'])) = parenDepth inner := by
  have last : (([')'].count '(' : Nat) : Int) - ([')'].count ')' : Nat) = -1 := rfl
  rw [parenDepth_cons_open, parenDepth_append_of_plain closed (forall_mem_of_all rfl), last]
  omega

/-- Between a parenthesis at the start and one at the end all match exactly if no part in front, apart from the
empty one and the whole, closes all that it opens. -/
theorem parensMatch_inner (closed : openQuote inner = none) (nested : ParensMatch ('(' :: (inner ++ [')']))) :
    ParensMatch inner ↔ ∀ front rest, '(' :: (inner ++ [')']) = front ++ rest → front ≠ [] → rest ≠ [] →
      parenDepth front ≠ 0 := by
  constructor
  · intro within front rest split some more level
    obtain ⟨c, front, rfl⟩ := List.exists_cons_of_ne_nil some
    rw [List.cons_append, List.cons_eq_cons] at split
    obtain ⟨rest, last, rfl⟩ := (List.eq_nil_or_concat rest).resolve_left more
    obtain ⟨begins, split⟩ := split
    rw [List.concat_eq_append, ← List.append_assoc] at split
    have bound := within.front front rest (List.append_inj' split rfl).1
    rw [← begins, parenDepth_cons_open] at level
    omega
  · intro apart
    refine ⟨parenDepth_inner closed ▸ nested.whole, fun front rest split => ?_⟩
    have bound := nested.front ('(' :: front) (rest ++ [')']) (by simp [split])
    have level := apart ('(' :: front) (rest ++ [')']) (by simp [split]) (by simp) (by simp)
    rw [parenDepth_cons_open] at bound level
    omega

end InlineCompletion.Scan
