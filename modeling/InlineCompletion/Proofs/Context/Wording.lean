import InlineCompletion.Proofs.Scan.Comments
import InlineCompletion.Proofs.Scan.Effects

/-!
The words behind the slashes of a comment, as the search for the open call reads them. They are read as code, so that
they go unseen exactly if their parentheses match, both by themselves and where a literal is open in front of them:
otherwise they close a call of a line above or hide it behind one of their own.
-/

namespace InlineCompletion.Call

open Text Scan Standing

variable {text typed : Text} {above : List Text}

/-! Words that are not seen. -/

/-- A scan does not stand behind a backslash at the end of a text that ends in a slash. -/
theorem nests_behind_slash (nests : NestsAnywhere text) (slash : ['/'] <:+ typed) :
    (outside.through typed).Nests text := by
  obtain ⟨front, rfl⟩ := slash
  refine nestsAnywhere_iff.mp nests _ ?_ (isQuote_through (by simp [outside]) _)
  rw [through_append, through_cons, through_nil, escaped_read, Bool.and_eq_false_iff]
  exact .inr (by decide)

theorem isLogText_append (nests : NestsAnywhere text) (slash : ['/'] <:+ typed) :
    isLogText (typed ++ text) = isLogText typed := by
  unfold isLogText
  rw [innermostOpenParen_append_of_nests (nests_behind_slash nests slash)]
  cases found : innermostOpenParen typed with
  | none => rfl
  | some column =>
    have inside := innermostOpenParen_lt found
    dsimp only
    rw [List.take_append_of_le_length inside.le]

/-- By induction on the lines above: the text that is searched always ends in the slashes and the words. -/
theorem openFrom_go_append_text (nests : NestsAnywhere text) (slash : ['/'] <:+ typed) :
    (openFrom.go (typed ++ text) above).any isLogText = (openFrom.go typed above).any isLogText := by
  induction above generalizing typed with
  | nil => rfl
  | cons line above ih =>
    have longer : ['/'] <:+ trimRight (dropComment line) ++ '\n' :: typed :=
      slash.trans ((List.suffix_cons ..).trans (List.suffix_append ..))
    have split : trimRight (dropComment line) ++ '\n' :: (typed ++ text) =
        (trimRight (dropComment line) ++ '\n' :: typed) ++ text := by simp
    simp only [openFrom.go, split, innermostOpenParen_append_of_nests (nests_behind_slash nests longer)]
    split
    · rfl
    · split
      · exact isLogText_append nests longer
      · split
        · rfl
        · exact ih longer

/-- Words whose parentheses match make no log call of a place, or none. -/
theorem isLogCall_append_text (nests : NestsAnywhere text) (slash : ['/'] <:+ typed) (front : List Text) :
    isLogCall (front ++ [typed ++ text]) = isLogCall (front ++ [typed]) := by
  rw [isLogCall_concat, isLogCall_concat, openFrom, openFrom,
    innermostOpenParen_append_of_nests (nests_behind_slash nests slash)]
  split
  · exact isLogText_append nests slash
  · exact openFrom_go_append_text nests slash

/-! Words that are seen. -/

/-- An open call, and below it a line on which a literal may be open. -/
def callAbove (callee : Text) (quote : Option Char) : List Text :=
  [callee ++ "(", quote.toList]

/-- A line on which the search neither ends nor drops anything. -/
def IsPassed (line : Text) : Prop :=
  trimRight (dropComment line) = line ∧ endsWithAny line [";", [closeBrace]] = false ∧ endsWith line [openBrace] = false

instance (line : Text) : Decidable (IsPassed line) :=
  inferInstanceAs (Decidable (_ ∧ _))

theorem openFrom_go_cons {line : Text} (passed : IsPassed line) (typed : Text) (above : List Text) :
    openFrom.go typed (line :: above) =
      if (innermostOpenParen (line ++ '\n' :: typed)).isSome then some (line ++ '\n' :: typed)
      else openFrom.go (line ++ '\n' :: typed) above := by
  obtain ⟨same, goesOn, inside⟩ := passed
  simp only [openFrom.go, same, goesOn, inside, Bool.false_eq_true, if_false]

/-- What the search does between the two lines and the slashes: it passes over the lines, stands in the literal, and
sees the call only. -/
structure Stage (callee : Text) (quote : Option Char) : Prop where
  called : IsPassed (callee ++ "(")
  quoted : IsPassed quote.toList
  within : outside.through (quote.toList ++ '\n' :: "//") = ⟨quote, false⟩
  beneath : outside.through (callee ++ "(" ++ '\n' :: (quote.toList ++ '\n' :: "//")) = ⟨quote, false⟩
  only : (outside.matching (callee ++ "(" ++ '\n' :: (quote.toList ++ '\n' :: "//"))).opened.length = 1
  logs : isLogCall (callAbove callee quote ++ [("//" : Text)]) = decide (callee = "print")

variable {callee other : Text} {quote : Option Char}

theorem stage (known : ∀ c ∈ quote, isQuote c = true) (given : callee ∈ [("print" : Text), "foo"]) :
    Stage callee quote := by
  have marks : quote = none ∨ quote = some singleQuote ∨ quote = some doubleQuote ∨ quote = some backtick := by
    cases quote with
    | none => exact .inl rfl
    | some c => simpa [isQuote, or_assoc] using known c rfl
  simp only [List.mem_cons, List.not_mem_nil, or_false] at given
  rcases given with rfl | rfl <;> rcases marks with rfl | rfl | rfl | rfl <;>
    exact ⟨by decide +kernel, by decide +kernel, by decide +kernel, by decide +kernel, by decide +kernel,
      by decide +kernel⟩

/-- The search goes up over both lines, and the longer texts are looked at one after the other. -/
theorem isLogCall_callAbove (stage : Stage callee quote) (typed : Text) :
    isLogCall (callAbove callee quote ++ [typed]) =
      ([typed, quote.toList ++ '\n' :: typed, callee ++ "(" ++ '\n' :: (quote.toList ++ '\n' :: typed)].find?
        fun text => (innermostOpenParen text).isSome).any isLogText := by
  have upwards : (callAbove callee quote).reverse = [quote.toList, callee ++ "("] := rfl
  rw [isLogCall_concat, upwards, openFrom, openFrom_go_cons stage.quoted, openFrom_go_cons stage.called, openFrom.go]
  simp only [List.find?]
  cases (innermostOpenParen typed).isSome <;> cases (innermostOpenParen (quote.toList ++ '\n' :: typed)).isSome <;>
    cases (innermostOpenParen (callee ++ "(" ++ '\n' :: (quote.toList ++ '\n' :: typed))).isSome <;> rfl

/-- A call that the words open themselves hides the one above. -/
theorem isLogCall_hidden (one : Stage callee quote) (two : Stage other quote)
    (found : innermostOpenParen typed ≠ none ∨ innermostOpenParen (quote.toList ++ '\n' :: typed) ≠ none) :
    isLogCall (callAbove callee quote ++ [typed]) = isLogCall (callAbove other quote ++ [typed]) := by
  simp only [← Option.isSome_iff_ne_none] at found
  rw [isLogCall_callAbove one, isLogCall_callAbove two]
  rcases found with found | found
  · simp only [List.find?, found]
  · simp only [List.find?, found]

/-- Words that close more than they open close the call above. -/
theorem isLogCall_closed (stage : Stage callee quote) (seen : ¬ (⟨quote, false⟩ : Standing).Nests text)
    (free : innermostOpenParen ("//" ++ text) = none)
    (freeBelow : innermostOpenParen (quote.toList ++ '\n' :: ("//" ++ text)) = none) :
    isLogCall (callAbove callee quote ++ ["//" ++ text]) = false := by
  have line : quote.toList ++ '\n' :: ("//" ++ text) = (quote.toList ++ '\n' :: "//") ++ text := by simp
  have lines : callee ++ "(" ++ '\n' :: (quote.toList ++ '\n' :: ("//" ++ text)) =
      (callee ++ "(" ++ '\n' :: (quote.toList ++ '\n' :: "//")) ++ text := by simp
  have opened : ((⟨quote, false⟩ : Standing).matching text).opened = [] := by
    have whole := freeBelow
    rw [line, innermostOpenParen_eq_head?, opened_append, stage.within, List.head?_eq_none_iff] at whole
    exact List.map_eq_nil_iff.mp (List.append_eq_nil_iff.mp whole).1
  have strays : ((⟨quote, false⟩ : Standing).matching text).strays ≠ [] := fun none =>
    seen (nests_iff.mpr ⟨opened, none⟩)
  have freeAbove : innermostOpenParen (callee ++ "(" ++ '\n' :: (quote.toList ++ '\n' :: ("//" ++ text))) = none := by
    have some := List.length_pos_iff.mpr strays
    rw [lines, innermostOpenParen_eq_head?, opened_append, stage.beneath, opened, List.drop_of_length_le]
    · rfl
    · rw [stage.only]
      exact some
  rw [isLogCall_callAbove stage]
  simp only [List.find?, free, freeBelow, freeAbove, Option.isSome_none, Option.any_none]

/-- Below an open call, and perhaps a literal that is left open, words are seen unless they nest there. -/
theorem exists_isLogCall_ne (known : ∀ c ∈ quote, isQuote c = true) (seen : ¬ (⟨quote, false⟩ : Standing).Nests text) :
    ∃ callee, isLogCall (callAbove callee quote ++ ["//" ++ text]) ≠ isLogCall (callAbove callee quote ++ [("//" : Text)]) := by
  have prints : Stage "print" quote := stage known (by decide)
  have others : Stage "foo" quote := stage known (by decide)
  by_contra same
  push Not at same
  by_cases hidden : innermostOpenParen ("//" ++ text) ≠ none ∨
      innermostOpenParen (quote.toList ++ '\n' :: ("//" ++ text)) ≠ none
  · have agree := isLogCall_hidden prints others hidden
    rw [same, same, prints.logs, others.logs] at agree
    exact absurd agree (by decide)
  · push Not at hidden
    have closed := isLogCall_closed prints seen hidden.1 hidden.2
    rw [same, prints.logs] at closed
    exact absurd closed (by decide)

end InlineCompletion.Call
