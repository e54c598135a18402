import InlineCompletion.Proofs.Reply.Lines
import InlineCompletion.Proofs.Scan.Parens
import InlineCompletion.Reply.Cleaning

/-!
The arguments of a log call out of a reply. Their parentheses match as those of the reply do, unless the ones at
the two ends of the reply do not belong together, or literals bring in more closing than opening parentheses. The
literal that they begin with is closed, unless a backslash escapes the quote that is put behind it.
-/

namespace InlineCompletion

theorem Pattern.eraseFirst_of_absent {α : Type} {p : Pattern α} {text : Text} (absent : occursIn p text = false) :
    eraseFirst p text = text := by
  unfold eraseFirst replaceFirst
  rw [Option.not_isSome_iff_eq_none.mp (Bool.eq_false_iff.mp absent)]
  rfl

theorem Text.startsWith_singleton {text : Text} {c : Char} : startsWith text [c] = true ↔ text.head? = some c := by
  unfold startsWith
  rw [List.isPrefixOf_iff_prefix, List.head?_eq_some_iff]
  exact exists_congr fun rest => eq_comm

namespace Reply

open Text Scan

/-- The reply without its announcement, the semicolons at its end and the white space around it. -/
def arguments (text : Text) : Text :=
  trimRight (dropTrailing (· = ';') (trim (Pattern.eraseFirst Wrapping.suggestedArgument (trim text))))

/-- The arguments without parentheses around them, before their first literal is closed. -/
def unrepaired (text : Text) : Text :=
  dropSurplusParens (dropOuterParens (arguments text))

/-- The parentheses at the ends of the text do not belong together: before its end everything is closed. -/
structure WrapsApart (text : Text) : Prop where
  starts : text.head? = some '('
  ends : text.getLast? = some ')'
  apart : ∃ front rest, text = front ++ rest ∧ front ≠ [] ∧ rest ≠ [] ∧ parenDepth front = 0

/-- There are more closing than opening parentheses, those in literals included, and one is at the end. -/
structure HasSurplus (text : Text) : Prop where
  ends : text.getLast? = some ')'
  more : text.count '(' < text.count ')'

variable {text inner : Text} {quote : Char}

/-! Outer parentheses. -/

theorem dropOuterParens_cases (text : Text) :
    (∃ inner, text = '(' :: (inner ++ [')']) ∧ dropOuterParens text = trim inner) ∨
      dropOuterParens text = text ∧ ¬ (text.head? = some '(' ∧ text.getLast? = some ')') := by
  unfold dropOuterParens
  split
  · next given =>
    obtain ⟨starts, ends⟩ := Bool.and_eq_true_iff.mp given
    obtain ⟨rest, rfl⟩ := List.head?_eq_some_iff.mp (startsWith_singleton.mp starts)
    obtain ⟨front, split⟩ := List.getLast?_eq_some_iff.mp (endsWith_singleton.mp ends)
    cases front with
    | nil => cases split
    | cons c inner =>
      obtain ⟨rfl, rfl⟩ := List.cons_eq_cons.mp split
      exact .inl ⟨inner, rfl, by simp⟩
  · next given =>
    refine .inr ⟨rfl, fun ⟨starts, ends⟩ => given ?_⟩
    exact Bool.and_eq_true_iff.mpr ⟨startsWith_singleton.mpr starts, endsWith_singleton.mpr ends⟩

theorem isTrimmed_dropOuterParens (trimmed : text.IsTrimmed) : (dropOuterParens text).IsTrimmed := by
  rcases dropOuterParens_cases text with ⟨inner, -, same⟩ | ⟨same, -⟩
  · exact same ▸ isTrimmed_trim inner
  · rwa [same]

/-- Without literals that are left open, parentheses around a text go only where they are there; what remains
matches exactly if they belong together. -/
theorem parensMatch_dropOuterParens (closed : openQuote text = none) (nested : ParensMatch text) :
    openQuote (dropOuterParens text) = none ∧ parenDepth (dropOuterParens text) = 0 ∧
      (ParensMatch (dropOuterParens text) ↔ ¬ WrapsApart text) := by
  rcases dropOuterParens_cases text with ⟨inner, rfl, same⟩ | ⟨same, whole⟩
  · have within : openQuote inner = none := openQuote_inner inner ▸ closed
    rw [same, openQuote_trim, parenDepth_trim within, parensMatch_trim within, parensMatch_inner within nested]
    refine ⟨within, parenDepth_inner within ▸ nested.whole, fun all apart => ?_,
      fun none front rest split some more level => none ?_⟩
    · obtain ⟨front, rest, split, some, more, level⟩ := apart.apart
      exact all front rest split some more level
    · exact ⟨rfl, List.getLast?_concat (l := '(' :: inner), front, rest, split, some, more, level⟩
  · rw [same]
    exact ⟨closed, nested.whole, iff_of_true nested fun apart => whole ⟨apart.starts, apart.ends⟩⟩

/-! Surplus parentheses. -/

theorem hasSurplus_iff : (endsWith text ")" && decide (text.count '(' < text.count ')')) = true ↔ HasSurplus text := by
  rw [Bool.and_eq_true, decide_eq_true_eq, show (")" : String).toList = [')'] from rfl, endsWith_singleton]
  exact ⟨fun ⟨ends, more⟩ => ⟨ends, more⟩, fun surplus => ⟨surplus.ends, surplus.more⟩⟩

/-- Parentheses and white space are taken off the end. -/
theorem dropSurplusParens_go_append (fuel : Nat) (text : Text) :
    ∃ dropped, text = dropSurplusParens.go fuel text ++ dropped ∧ ∀ c ∈ dropped, c = ')' ∨ isBlank c = true := by
  induction fuel generalizing text with
  | zero => exact ⟨[], (List.append_nil text).symm, by simp⟩
  | succ fuel ih =>
    unfold dropSurplusParens.go
    split
    · next surplus =>
      obtain ⟨front, rfl⟩ := List.getLast?_eq_some_iff.mp (hasSurplus_iff.mp surplus).ends
      obtain ⟨blank, whole, white⟩ := dropTrailing_append isBlank front
      obtain ⟨dropped, split, all⟩ := ih (trimRight front)
      rw [List.dropLast_concat]
      refine ⟨dropped ++ (blank ++ [')']), ?_, ?_⟩
      · rw [← List.append_assoc, ← split, ← List.append_assoc, show trimRight front ++ blank = front from whole.symm]
      · simp only [List.mem_append, List.mem_singleton]
        rintro c (member | member | rfl)
        · exact all c member
        · exact .inr (white c member)
        · exact .inl rfl
    · exact ⟨[], (List.append_nil text).symm, by simp⟩

theorem dropSurplusParens_eq (whole : ¬ HasSurplus text) : dropSurplusParens text = text := by
  unfold dropSurplusParens
  cases text.length with
  | zero => rfl
  | succ fuel => rw [dropSurplusParens.go, if_neg (mt hasSurplus_iff.mp whole)]

theorem dropSurplusParens_of_surplus (surplus : HasSurplus text) :
    ∃ dropped, text = dropSurplusParens text ++ dropped ++ [')'] ∧ ∀ c ∈ dropped, c = ')' ∨ isBlank c = true := by
  obtain ⟨front, rfl⟩ := List.getLast?_eq_some_iff.mp surplus.ends
  obtain ⟨blank, whole, white⟩ := dropTrailing_append isBlank front
  obtain ⟨dropped, split, all⟩ := dropSurplusParens_go_append front.length (trimRight front)
  have same : dropSurplusParens (front ++ [')']) = dropSurplusParens.go front.length (trimRight front) := by
    unfold dropSurplusParens
    rw [List.length_append, List.length_singleton, dropSurplusParens.go, if_pos (hasSurplus_iff.mpr surplus),
      List.dropLast_concat]
  have taken : ∀ c ∈ dropped ++ blank, c = ')' ∨ isBlank c = true := fun c member =>
    (List.mem_append.mp member).elim (all c) fun there => .inr (white c there)
  refine ⟨dropped ++ blank, ?_, taken⟩
  rw [same, ← List.append_assoc, ← split, show trimRight front ++ blank = front from whole.symm]

theorem isTrimmed_dropSurplusParens (trimmed : text.IsTrimmed) : (dropSurplusParens text).IsTrimmed := by
  unfold dropSurplusParens
  generalize text.length = fuel
  induction fuel generalizing text with
  | zero => exact trimmed
  | succ fuel ih =>
    unfold dropSurplusParens.go
    split
    · exact ih (isTrimmed_trimRight (forall_head?_of_isPrefix (List.dropLast_prefix text) trimmed.first))
    · exact trimmed

theorem openQuote_dropSurplusParens (text : Text) : openQuote (dropSurplusParens text) = openQuote text := by
  obtain ⟨dropped, split, all⟩ := dropSurplusParens_go_append text.length text
  conv_rhs => rw [split]
  refine (openQuote_append_of_plain fun c member => ?_).symm
  rcases all c member with rfl | blank
  · rfl
  · exact (plain_of_isFiller (by simp [isFiller, blank])).1

/-- Where closing parentheses are taken off outside of literals, others stay open. -/
theorem parenDepth_of_surplus (closed : openQuote text = none) (surplus : HasSurplus text) :
    parenDepth text < parenDepth (dropSurplusParens text) := by
  obtain ⟨dropped, split, all⟩ := dropSurplusParens_of_surplus surplus
  rw [List.append_assoc] at split
  have plain : ∀ c ∈ dropped ++ [')'], isQuote c = false ∧ c ≠ '(' := by
    intro c member
    have given : c = ')' ∨ isBlank c = true :=
      (List.mem_append.mp member).elim (all c) fun there => .inl (List.mem_singleton.mp there)
    rcases given with rfl | blank
    · exact ⟨rfl, by decide⟩
    · have filler := plain_of_isFiller (c := c) (by simp [isFiller, blank])
      exact ⟨filler.1, filler.2.2.1⟩
  have opening : (dropped ++ [')']).count '(' = 0 := List.count_eq_zero.mpr fun member => (plain _ member).2 rfl
  have closing : 0 < (dropped ++ [')']).count ')' := List.count_pos_iff.mpr (by simp)
  have whole := parenDepth_append_of_plain (openQuote_dropSurplusParens text ▸ closed) fun c member =>
    (plain c member).1
  rw [← split] at whole
  omega

/-! The whole. -/

theorem isTrimmed_arguments (text : Text) : (arguments text).IsTrimmed := by
  obtain ⟨dropped, split, -⟩ := dropTrailing_append (· = ';')
    (trim (Pattern.eraseFirst Wrapping.suggestedArgument (trim text)))
  exact isTrimmed_trimRight (forall_head?_of_isPrefix ⟨dropped, split.symm⟩ (isTrimmed_trim _).first)

theorem isTrimmed_unrepaired (text : Text) : (unrepaired text).IsTrimmed :=
  isTrimmed_dropSurplusParens (isTrimmed_dropOuterParens (isTrimmed_arguments text))

/-- Only fillers are taken off around arguments that are not announced. -/
theorem exists_arguments (silent : Pattern.occursIn Wrapping.suggestedArgument (trim text) = false) :
    ∃ lead tail, text = lead ++ (arguments text ++ tail) ∧ (∀ c ∈ lead, isFiller c = true) ∧
      ∀ c ∈ tail, isFiller c = true := by
  obtain ⟨lead, tail, whole, leading, trailing⟩ := exists_trim_fillers text
  obtain ⟨ended, bare, semicolons⟩ := dropTrailing_append (· = ';') (trim text)
  obtain ⟨gap, left, blank⟩ := dropTrailing_append isBlank (dropTrailing (· = ';') (trim text))
  have given : arguments text = dropTrailing isBlank (dropTrailing (· = ';') (trim text)) := by
    rw [arguments, Pattern.eraseFirst_of_absent silent, trim_trim]
    rfl
  refine ⟨lead, gap ++ (ended ++ tail), ?_, leading, ?_⟩
  · calc
      text = lead ++ (trim text ++ tail) := whole
      _ = lead ++ (dropTrailing (· = ';') (trim text) ++ ended ++ tail) := by rw [← bare]
      _ = lead ++ (arguments text ++ gap ++ ended ++ tail) := by rw [given, ← left]
      _ = lead ++ (arguments text ++ (gap ++ (ended ++ tail))) := by simp only [List.append_assoc]
  · simp only [List.mem_append]
    rintro c (member | member | member)
    · simp [isFiller, blank c member]
    · simp [isFiller, of_decide_eq_true (semicolons c member)]
    · exact trailing c member

theorem closeLeadingQuote_cases (text : Text) :
    (∃ quote, openQuote text = some quote ∧ text.head? = some quote ∧ closeLeadingQuote text = text ++ [quote]) ∨
      closeLeadingQuote text = text ∧ ∀ quote, text.head? = some quote → openQuote text ≠ some quote := by
  unfold closeLeadingQuote
  split
  · next none => exact .inr ⟨rfl, fun quote _ => by simp [none]⟩
  · next quote opened =>
    split
    · next starts => exact .inl ⟨quote, opened, startsWith_singleton.mp starts, rfl⟩
    · next starts =>
      refine .inr ⟨rfl, fun other first same => starts ?_⟩
      cases opened.symm.trans same
      exact startsWith_singleton.mpr first

/-- White space is trimmed before the quote is put behind the arguments. -/
theorem cleanLogArguments_eq (text : Text) : cleanLogArguments text = closeLeadingQuote (unrepaired text) := by
  have trimmed := isTrimmed_unrepaired text
  suffices repaired : IsTrimmed (closeLeadingQuote (unrepaired text)) from repaired.trim_eq
  rcases closeLeadingQuote_cases (unrepaired text) with ⟨quote, opened, first, same⟩ | ⟨same, -⟩
  · have solid := not_isBlank_of_isQuote (isQuote_of_openQuote opened)
    rw [same]
    refine ⟨fun c member => ?_, fun c member => ?_⟩
    · rw [List.head?_append, first] at member
      exact Option.some.inj member ▸ solid
    · rw [List.getLast?_concat] at member
      exact Option.some.inj member ▸ solid
  · rwa [same]

/-- The parentheses of arguments that match outside of literals, with no literal left open, match after cleaning
exactly if those at the ends belong together and the literals bring in no surplus. -/
theorem parensMatch_cleanLogArguments_iff
    (silent : Pattern.occursIn Wrapping.suggestedArgument (trim text) = false)
    (closed : openQuote text = none) (nested : ParensMatch text) :
    ParensMatch (cleanLogArguments text) ↔
      ¬ WrapsApart (arguments text) ∧ ¬ HasSurplus (dropOuterParens (arguments text)) := by
  obtain ⟨lead, tail, whole, leading, trailing⟩ := exists_arguments silent
  have closed : openQuote (arguments text) = none := by
    rw [whole, openQuote_fillers leading trailing] at closed
    exact closed
  have nested : ParensMatch (arguments text) := by
    rw [whole, parensMatch_fillers closed leading trailing] at nested
    exact nested
  obtain ⟨closed, level, together⟩ := parensMatch_dropOuterParens closed nested
  have open' : openQuote (unrepaired text) = none := (openQuote_dropSurplusParens _).trans closed
  have given : cleanLogArguments text = unrepaired text := by
    rw [cleanLogArguments_eq, closeLeadingQuote, open']
  rw [given, ← together]
  by_cases surplus : HasSurplus (dropOuterParens (arguments text))
  · refine iff_of_false (fun nested => ?_) fun both => both.2 surplus
    have more := parenDepth_of_surplus closed surplus
    rw [level, show parenDepth (dropSurplusParens _) = 0 from nested.whole] at more
    exact Int.lt_irrefl 0 more
  · rw [unrepaired, dropSurplusParens_eq surplus]
    exact (and_iff_left surplus).symm

/-- Two pairs of parentheses are taken for one around both. -/
theorem parens_taken_apart :
    ParensMatch ("(a) + (b)" : Text) ∧ cleanLogArguments "(a) + (b)" = "a) + (b" ∧
      ¬ ParensMatch (cleanLogArguments "(a) + (b)") := by
  have nested : ParensMatch ("(a) + (b)" : Text) := by decide +kernel
  have apart : WrapsApart (arguments "(a) + (b)") :=
    { starts := by decide +kernel
      ends := by decide +kernel
      apart := ⟨"(a)".toList, " + (b)".toList, by decide +kernel⟩ }
  refine ⟨nested, by decide +kernel, fun left => ?_⟩
  exact ((parensMatch_cleanLogArguments_iff (by decide +kernel) (by decide +kernel) nested).mp left).1 apart

example : cleanLogArguments "f(\")\", x)" = "f(\")\", x" := by decide +kernel

/-- What cleaning makes of the arguments begins with a quote whose literal is left open exactly if the arguments
did so before and end in a backslash that escapes the quote put behind them. -/
theorem leading_literal_open_iff (text : Text) (quote : Char) :
    ((cleanLogArguments text).head? = some quote ∧ openQuote (cleanLogArguments text) = some quote) ↔
      (unrepaired text).head? = some quote ∧ openQuote (unrepaired text) = some quote ∧
        backslashesAtEnd (unrepaired text) % 2 = 1 := by
  rw [cleanLogArguments_eq]
  rcases closeLeadingQuote_cases (unrepaired text) with ⟨other, opened, first, same⟩ | ⟨same, all⟩
  · have begins : (unrepaired text ++ [other]).head? = some other := by
      rw [List.head?_append, first]
      rfl
    rw [same, begins, first, opened, openQuote_concat_quote opened]
    constructor
    · rintro ⟨begins, still⟩
      refine ⟨begins, begins, ?_⟩
      split at still
      · next odd => exact odd
      · cases still
    · rintro ⟨begins, -, odd⟩
      exact ⟨begins, (if_pos odd).trans begins⟩
  · rw [same]
    exact iff_of_false (fun given => all quote given.1 given.2) fun given => all quote given.1 given.2.1

example : cleanLogArguments "'C:\x5c" = "'C:\x5c'" ∧ openQuote "'C:\x5c'" = some singleQuote := by decide +kernel

end Reply

end InlineCompletion
