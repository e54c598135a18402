import InlineCompletion.Proofs.Text.Names

/-!
Round, square and curly brackets. A bracket that is opened is awaited to be closed, the latest one first; where
all of them are, each kind of bracket is closed as often as it is opened.
-/

namespace InlineCompletion.Text

/-- The brackets that open and those that close them. -/
def brackets : List (Char × Char) :=
  [('(', ')'), ('[', ']'), (openBrace, closeBrace)]

def closer? (c : Char) : Option Char :=
  (brackets.find? fun pair => pair.1 = c).map Prod.snd

def isCloser (c : Char) : Bool :=
  brackets.any fun pair => pair.2 = c

/-- The text closes the awaited brackets, the first one first, and all that it opens itself. -/
def nests : List Char → Text → Bool
  | awaited, [] => awaited.isEmpty
  | awaited, c :: rest =>
    match closer? c with
    | some right => nests (right :: awaited) rest
    | none =>
      if isCloser c then
        match awaited with
        | [] => false
        | right :: others => c = right && nests others rest
      else nests awaited rest

/-- The brackets of the text are properly nested. -/
def IsNested (text : Text) : Prop :=
  nests [] text = true

instance : DecidablePred IsNested :=
  fun text => inferInstanceAs (Decidable (nests [] text = true))

/-- Somewhere a bracket is opened, and closed again with only white space in between. -/
def hasHollowPair : Text → Bool
  | [] => false
  | c :: rest =>
    (closer? c).any (fun right => rest.head?.any isBlank && (trimLeft rest).head? = some right) ||
      hasHollowPair rest

variable {text value lead front gap rest : Text} {awaited : List Char} {c left right : Char}

theorem mem_brackets (opens : closer? left = some right) : (left, right) ∈ brackets := by
  obtain ⟨pair, found, rfl⟩ := Option.map_eq_some_iff.mp opens
  have same := List.find?_some found
  obtain rfl : pair.1 = left := of_decide_eq_true same
  exact List.mem_of_find?_eq_some found

theorem closer?_eq_some (pair : (left, right) ∈ brackets) : closer? left = some right := by
  have all : ∀ pair ∈ brackets, closer? pair.1 = some pair.2 := by decide
  exact all _ pair

theorem eq_iff_of_mem_brackets {left' right' : Char} (pair : (left, right) ∈ brackets)
    (pair' : (left', right') ∈ brackets) : left = left' ↔ right = right' := by
  have all : ∀ pair ∈ brackets, ∀ pair' ∈ brackets, pair.1 = pair'.1 ↔ pair.2 = pair'.2 := by decide
  exact all _ pair _ pair'

theorem ne_of_mem_brackets {left' right' : Char} (pair : (left, right) ∈ brackets)
    (pair' : (left', right') ∈ brackets) : left ≠ right' := by
  have all : ∀ pair ∈ brackets, ∀ pair' ∈ brackets, pair.1 ≠ pair'.2 := by decide
  exact all _ pair _ pair'

theorem not_bracket_of_isNameChar (named : isNameChar c = true) : closer? c = none ∧ isCloser c = false := by
  have other : ∀ pair ∈ brackets, isNameChar pair.1 = false ∧ isNameChar pair.2 = false := by decide
  constructor
  · cases opens : closer? c with
    | none => rfl
    | some right => cases named.symm.trans (other _ (mem_brackets opens)).1
  · refine Bool.eq_false_iff.mpr fun closes => ?_
    obtain ⟨pair, member, same⟩ := List.any_eq_true.mp closes
    cases of_decide_eq_true same
    cases named.symm.trans (other pair member).2

/-! Nesting. -/

/-- A character opens a bracket, closes the first of those awaited, or is no bracket. -/
theorem nests_cons (nested : nests awaited (c :: rest) = true) :
    (∃ right, (c, right) ∈ brackets ∧ nests (right :: awaited) rest = true) ∨
      (∃ others, closer? c = none ∧ awaited = c :: others ∧ nests others rest = true) ∨
      closer? c = none ∧ isCloser c = false ∧ nests awaited rest = true := by
  unfold nests at nested
  split at nested
  · next right opens => exact .inl ⟨right, mem_brackets opens, nested⟩
  · next none =>
    split at nested
    · split at nested
      · cases nested
      · next right others =>
        obtain ⟨same, later⟩ := Bool.and_eq_true_iff.mp nested
        cases of_decide_eq_true same
        exact .inr (.inl ⟨others, none, rfl, later⟩)
    · next outside => exact .inr (.inr ⟨none, Bool.eq_false_iff.mpr outside, nested⟩)

/-- Each kind of bracket is closed as often as it is opened or awaited. -/
theorem count_of_nests (pair : (left, right) ∈ brackets) (nested : nests awaited text = true) :
    text.count left + awaited.count right = text.count right := by
  induction text generalizing awaited with
  | nil =>
    cases awaited with
    | nil => rfl
    | cons right others => cases nested
  | cons c rest ih =>
    have unopened (none : closer? c = none) : (c :: rest).count left = rest.count left := by
      refine List.count_cons_of_ne ?_
      rintro rfl
      cases none.symm.trans (closer?_eq_some pair)
    rcases nests_cons nested with ⟨right', opens, later⟩ | ⟨others, none, rfl, later⟩ | ⟨none, open', later⟩
    · have both : c = left ↔ right' = right := eq_iff_of_mem_brackets opens pair
      have other : (c :: rest).count right = rest.count right :=
        List.count_cons_of_ne (ne_of_mem_brackets opens pair)
      have given := ih later
      rw [other, ← given]
      by_cases same : c = left
      · obtain rfl := same
        rw [both.mp rfl, List.count_cons_self, List.count_cons_self]
        omega
      · rw [List.count_cons_of_ne same, List.count_cons_of_ne fun same' => same (both.mpr same')]
    · rw [unopened none, List.count_cons, List.count_cons, ← ih later, Nat.add_assoc]
    · have other : (c :: rest).count right = rest.count right := by
        refine List.count_cons_of_ne ?_
        rintro rfl
        have closes : isCloser c = true := List.any_eq_true.mpr ⟨_, pair, decide_eq_true rfl⟩
        cases open'.symm.trans closes
      rw [unopened none, other, ih later]

theorem IsNested.count (nested : text.IsNested) (pair : (left, right) ∈ brackets) :
    text.count left = text.count right :=
  count_of_nests pair nested

/-- A text that closes what is awaited does not end with an opening bracket. -/
theorem closer?_getLast? (nested : nests awaited text = true) : ∀ c ∈ text.getLast?, closer? c = none := by
  induction text generalizing awaited with
  | nil => exact fun _ member => by cases member
  | cons c rest ih =>
    cases rest with
    | nil =>
      intro d member
      cases member
      rcases nests_cons nested with ⟨_, -, later⟩ | ⟨_, none, -⟩ | ⟨none, -⟩
      · cases later
      · exact none
      · exact none
    | cons d more =>
      rw [List.getLast?_cons_cons]
      rcases nests_cons nested with ⟨_, -, later⟩ | ⟨_, -, -, later⟩ | ⟨-, -, later⟩
      · exact ih later
      · exact ih later
      · exact ih later

/-- Nor does it begin with a closing bracket when none is awaited. -/
theorem IsNested.head? (nested : text.IsNested) : ∀ c ∈ text.head?, isCloser c = false := by
  cases text with
  | nil => exact fun _ member => by cases member
  | cons c rest =>
    intro d member
    cases member
    rcases nests_cons nested with ⟨right, opens, -⟩ | ⟨_, -, awaited, -⟩ | ⟨-, other, -⟩
    · have all : ∀ pair ∈ brackets, isCloser pair.1 = false := by decide
      exact all _ opens
    · cases awaited
    · exact other

theorem isNested_of_plain (plain : ∀ c ∈ text, closer? c = none ∧ isCloser c = false) : text.IsNested := by
  unfold IsNested
  induction text with
  | nil => rfl
  | cons c rest ih =>
    obtain ⟨opens, closes⟩ := plain c (List.mem_cons_self ..)
    unfold nests
    rw [opens, closes]
    exact ih fun d member => plain d (List.mem_cons_of_mem c member)

/-! Pairs of brackets. -/

theorem hasHollowPair_of_plain (plain : ∀ c ∈ text, closer? c = none) : hasHollowPair text = false := by
  induction text with
  | nil => rfl
  | cons c rest ih =>
    rw [hasHollowPair, plain c (List.mem_cons_self ..), ih fun d member => plain d (List.mem_cons_of_mem c member)]
    rfl

theorem hasHollowPair_append (pair : (left, right) ∈ brackets) (some : gap ≠ [])
    (blank : ∀ c ∈ gap, isBlank c = true) : hasHollowPair (front ++ left :: (gap ++ right :: rest)) = true := by
  induction front with
  | nil =>
    have solid : isBlank right = false := by
      have all : ∀ pair ∈ brackets, isBlank pair.2 = false := by decide
      exact all _ pair
    obtain ⟨c, more, rfl⟩ := List.exists_cons_of_ne_nil some
    have left' : trimLeft (c :: more ++ right :: rest) = right :: rest := by
      unfold trimLeft
      rw [List.dropWhile_append_of_pos blank, List.dropWhile_cons_of_neg (by simp [solid])]
    rw [List.nil_append, hasHollowPair, closer?_eq_some pair, left']
    simp [blank c (List.mem_cons_self ..)]
  | cons c more ih =>
    rw [List.cons_append, hasHollowPair, ih, Bool.or_true]

/-- What begins with a character that the first part of a text lacks is at the end of the other part. -/
theorem exists_append_of_not_mem (absent : c ∉ lead) (same : lead ++ value = front ++ c :: rest) :
    ∃ body, value = body ++ c :: rest ∧ front = lead ++ body := by
  rcases List.append_eq_append_iff.mp same with ⟨body, first, last⟩ | ⟨more, first, last⟩
  · exact ⟨body, last, first⟩
  · cases more with
    | nil => exact ⟨[], last.symm, by simp [first]⟩
    | cons d others =>
      cases last
      exact absurd (first ▸ List.mem_append_right _ (List.mem_cons_self ..)) absent

end InlineCompletion.Text
