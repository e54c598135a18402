import InlineCompletion.Context.Call
import InlineCompletion.Proofs.Scan.Unclosed
import InlineCompletion.Proofs.Text.Joins

/-!
The open call in a window of lines that all go on. The search puts one line after the other in front of the text and
stops as soon as a parenthesis is open; reading the window as a whole leads to the same parenthesis, since lines in
front can only be closed by what is not closed behind them.
-/

namespace InlineCompletion.Call

open Text Scan Standing

/-- A line behind which a statement goes on: it leaves no literal open, has no comment, and does not end in what ends a
statement or begins or ends a block. -/
structure GoesOn (line : Text) : Prop where
  closed : openQuote line = none
  bare : ∀ start, ¬ CommentAt line start
  unended : ∀ c ∈ (trimRight line).getLast?, c ≠ ';' ∧ c ≠ closeBrace ∧ c ≠ openBrace

/-- The window as one text, with nothing behind the lines above the cursor. -/
def wholeText (above : List Text) (typed : Text) : Text :=
  unlines (above.map trimRight ++ [typed])

/-- Of the whole text there is the end that was found, and the same parenthesis is the innermost open one in both; where
none was found, none is open. -/
def Leads (whole : Text) : Option Text → Prop
  | none => innermostOpenParen whole = none
  | some call => ∃ front column, whole = front ++ call ∧ innermostOpenParen call = some column ∧
      innermostOpenParen whole = some (front.length + column)

variable {line typed front text : Text} {above upwards : List Text} {column : Nat}

theorem GoesOn.dropComment_eq (goesOn : GoesOn line) : dropComment line = line := by
  rcases dropComment_cases line with ⟨start, -, comment, -⟩ | ⟨same, -⟩
  · exact absurd comment (goesOn.bare start)
  · exact same

theorem GoesOn.not_endsWith (goesOn : GoesOn line) :
    endsWithAny (trimRight line) [";", [closeBrace]] = false ∧ endsWith (trimRight line) [openBrace] = false := by
  have other {c : Char} (odd : c = ';' ∨ c = closeBrace ∨ c = openBrace) : endsWith (trimRight line) [c] = false := by
    refine Bool.eq_false_iff.mpr fun ends => ?_
    obtain ⟨semicolon, closing, opening⟩ := goesOn.unended c (endsWith_singleton.mp ends)
    tauto
  refine ⟨?_, other (.inr (.inr rfl))⟩
  show (endsWith (trimRight line) [';'] || (endsWith (trimRight line) [closeBrace] || false)) = false
  rw [other (.inl rfl), other (.inr (.inl rfl))]
  rfl

/-- Where nothing is open yet, the search goes on with such a line in front of the text. -/
theorem openFrom_cons (goesOn : GoesOn line) (none : innermostOpenParen typed = none) (above : List Text) :
    openFrom typed (line :: above) = openFrom (trimRight line ++ '\n' :: typed) above := by
  obtain ⟨statement, block⟩ := goesOn.not_endsWith
  rw [openFrom, none, openFrom.go, goesOn.dropComment_eq, statement, block]
  rfl

/-- Behind such lines a scan stands outside of all literals, and not behind a backslash either: that would escape the
line break. -/
theorem GoesOn.through_eq (goesOn : GoesOn line) : outside.through (trimRight line ++ ['\n']) = outside := by
  have closed : (outside.through (trimRight line)).quote = none := by
    obtain ⟨white, same, blank⟩ := dropTrailing_append isBlank line
    have same : line = trimRight line ++ white := same
    have plain : ∀ c ∈ white, isQuote c = false := fun c member =>
      Bool.eq_false_iff.mpr fun given => by cases (blank c member).symm.trans (not_isBlank_of_isQuote given)
    rw [← openQuote_eq, ← openQuote_append_of_plain plain, ← same]
    exact goesOn.closed
  rw [through_append, through_cons, through_nil]
  generalize outside.through (trimRight line) = standing at closed
  obtain ⟨quote, escaped⟩ := standing
  obtain rfl : quote = none := closed
  cases escaped <;> rfl

theorem through_lead (goesOn : ∀ line ∈ above, GoesOn line) :
    outside.through ((above.map trimRight).flatMap (· ++ ['\n'])) = outside := by
  induction above with
  | nil => rfl
  | cons line above ih =>
    rw [List.map_cons, List.flatMap_cons, Standing.through_append, (goesOn line (List.mem_cons_self ..)).through_eq]
    exact ih fun line member => goesOn line (List.mem_cons_of_mem _ member)

/-- What is open at the end of a text is so with more text in front of it. -/
theorem innermostOpenParen_append (free : outside.through front = outside)
    (found : innermostOpenParen text = some column) :
    innermostOpenParen (front ++ text) = some (front.length + column) := by
  rw [innermostOpenParen_eq_head?] at found
  rw [innermostOpenParen_eq_head?, opened_append, free, List.head?_append, List.head?_map, found, Option.map_some,
    Nat.add_comm]
  rfl

theorem wholeText_concat (above : List Text) (line typed : Text) :
    wholeText (above ++ [line]) typed = wholeText above (trimRight line ++ '\n' :: typed) := by
  simp only [wholeText, List.map_append, List.map_singleton, unlines_concat, List.flatMap_append, List.flatMap_singleton]
  simp

theorem leads_of_isOpen (goesOn : ∀ line ∈ above, GoesOn line) (found : innermostOpenParen typed = some column) :
    Leads (wholeText above typed) (some typed) := by
  rw [wholeText, unlines_concat]
  exact ⟨_, column, rfl, found, innermostOpenParen_append (through_lead goesOn) found⟩

/-- By induction on the lines that are left above: what was put in front so far is the end of the whole text. -/
theorem leads_openFrom (goesOn : ∀ line ∈ upwards, GoesOn line) (typed : Text) :
    Leads (wholeText upwards.reverse typed) (openFrom typed upwards) := by
  induction upwards generalizing typed with
  | nil =>
    cases found : innermostOpenParen typed with
    | none =>
      rw [openFrom, found]
      exact found
    | some column =>
      rw [openFrom, found]
      exact leads_of_isOpen (by simp) found
  | cons line upwards ih =>
    cases found : innermostOpenParen typed with
    | none =>
      rw [List.reverse_cons, wholeText_concat, openFrom_cons (goesOn line (List.mem_cons_self ..)) found]
      exact ih (fun line member => goesOn line (List.mem_cons_of_mem _ member)) _
    | some column =>
      rw [openFrom, found]
      exact leads_of_isOpen (fun line member => goesOn line (List.mem_reverse.mp member)) found

/-- In a window of lines that go on, the search for the open call and a scan of the window as a whole agree: either both
find no open parenthesis, or they find the same one, which is the last one outside of literals that is not closed behind
it. -/
theorem openText_agrees_with_scan (above : List Text) (typed : Text) (goesOn : ∀ line ∈ above, GoesOn line) :
    let whole := wholeText above typed
    (∃ call?, openText (above ++ [typed]) = .ok call? ∧ (call? = none ↔ innermostOpenParen whole = none) ∧
      ∀ call ∈ call?, ∃ front column, whole = front ++ call ∧ innermostOpenParen call = some column ∧
        innermostOpenParen whole = some (front.length + column)) ∧
    ∀ place, (innermostOpenParen whole = some place ↔ NeverClosed '(' ')' (blankLiterals whole) place ∧
        ∀ other, NeverClosed '(' ')' (blankLiterals whole) other → other ≤ place) ∧
      (innermostOpenParen whole = some place → whole[place]? = some '(' ∧ ¬ InLiteral whole place) := by
  intro whole
  have found : openText (above ++ [typed]) = .ok (openFrom typed above.reverse) := by simp [openText]
  have leads := leads_openFrom (fun line member => goesOn line (List.mem_reverse.mp member)) typed
  rw [List.reverse_reverse] at leads
  refine ⟨⟨_, found, ?_, fun call member => ?_⟩,
    fun place => ⟨innermostOpenParen_eq_some_iff whole place, fun open' => ?_⟩⟩
  · cases call : openFrom typed above.reverse with
    | none =>
      rw [call] at leads
      exact iff_of_true rfl leads
    | some text =>
      rw [call] at leads
      obtain ⟨front, column, -, -, isOpen⟩ := leads
      exact iff_of_false nofun (by rw [isOpen]; nofun)
  · rw [Option.mem_def.mp member] at leads
    exact leads
  · have stays := ((innermostOpenParen_eq_some_iff whole place).mp open').1
    exact of_getElem?_blankLiterals stays.opens (by decide)

/-- A condition that goes on, and in it a call with a parenthesis in a string and a closed call. -/
def conditionLines : List Text :=
  ["if (x && ", "  log('(', 1, "]

theorem goesOn_conditionLines : ∀ line ∈ conditionLines, GoesOn line := by
  have slashless : ∀ line ∈ conditionLines, '/' ∉ line := by decide
  have ends : ∀ line ∈ conditionLines,
      (trimRight line).getLast? = some '&' ∨ (trimRight line).getLast? = some ',' := by decide
  intro line member
  refine ⟨?_, fun start comment => ?_, fun c last => ?_⟩
  · revert line
    decide
  · have begins := List.isPrefixOf_iff_prefix.mp comment.1
    exact slashless line member (List.mem_of_mem_drop (begins.subset (List.mem_cons_self ..)))
  · rcases ends line member with ampersand | comma
    · cases ampersand.symm.trans last
      decide
    · cases comma.symm.trans last
      decide

/-- The call is found before the condition is looked at, and the scan of all lines finds its parenthesis too. -/
theorem openText_agrees_with_scan_condition :
    let typed : Text := "  g(2)"
    let whole := wholeText conditionLines typed
    (∀ line ∈ conditionLines, GoesOn line) ∧
      openText (conditionLines ++ [typed]) = .ok (some "  log('(', 1,\n  g(2)") ∧
      innermostOpenParen whole = some 14 ∧ whole[14]? = some '(' ∧ ¬ InLiteral whole 14 ∧
      NeverClosed '(' ')' (blankLiterals whole) 14 ∧
      ∀ other, NeverClosed '(' ')' (blankLiterals whole) other → other ≤ 14 := by
  intro typed whole
  obtain ⟨-, places⟩ := openText_agrees_with_scan conditionLines typed goesOn_conditionLines
  have call : openText (conditionLines ++ [typed]) = .ok (some "  log('(', 1,\n  g(2)") := by decide +kernel
  have innermost : innermostOpenParen whole = some 14 := by decide +kernel
  obtain ⟨here, free⟩ := (places 14).2 innermost
  exact ⟨goesOn_conditionLines, call, innermost, here, free, (places 14).1.mp innermost⟩

end InlineCompletion.Call
