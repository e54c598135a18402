import InlineCompletion.Context.Classify
import InlineCompletion.Proofs.Scan.Matching

/-!
All scans have one notion of a literal, the one by which a character belongs to it if a literal is open in front of
the character or behind it. The marks say so of each character, whatever follows; blanks stand for just these
characters; parentheses and braces are matched among the others; and a place is in a string if whatever is typed there
belongs to a literal.
-/

namespace InlineCompletion.Scan

open Text

variable {text : Text} {window others : List Text}

theorem blankLiterals_eq_mapIdx (text : Text) :
    blankLiterals text = text.mapIdx fun index c => if InLiteral text index then ' ' else c := by
  refine List.ext_getElem? fun index => ?_
  rw [getElem?_blankLiterals, List.getElem?_mapIdx]

/-- The scan for the enclosing brace depends on what is seen of the window only. -/
theorem unmatchedBrace_congr (same : ∀ place c, SeenAt window place c ↔ SeenAt others place c) :
    unmatchedBrace window = unmatchedBrace others := by
  have nodup (window : List Text) : (placed window).Nodup := by
    refine List.Pairwise.imp ?_ (pairwise_placed window)
    rintro a _ before rfl
    exact Before.irrefl _ before
  have members : (placed window).Perm (placed others) := by
    refine (List.perm_ext_iff_of_nodup (nodup window) (nodup others)).mpr fun ⟨c, place⟩ => ?_
    rw [mem_placed, mem_placed, same]
  have equal : placed window = placed others :=
    members.eq_of_pairwise (fun _ _ _ _ before after => absurd after before.asymm) (pairwise_placed window)
      (pairwise_placed others)
  rw [unmatchedBrace_eq, unmatchedBrace_eq, equal]

/-- In an open literal is a place where every character belongs to one. -/
theorem openQuote_ne_none_iff : openQuote text ≠ none ↔ ∀ c, InLiteral (text ++ [c]) text.length := by
  have before (c : Char) : (text ++ [c]).take text.length = text := List.take_left' rfl
  have whole (c : Char) : (text ++ [c]).take (text.length + 1) = text ++ [c] := List.take_of_length_le (by simp)
  constructor
  · intro opened c
    exact .inl (by rwa [before])
  · intro within
    have blank : openQuote (text ++ [' ']) = openQuote text := openQuote_append_of_plain (Text.forall_mem_of_all rfl)
    have held := within ' '
    rwa [InLiteral, before, whole, blank, or_self] at held

/-- The marks, the open literal at the end of a text, the blanks for literals, the scans for parentheses and braces
and the classification of a place agree on what belongs to a literal. -/
theorem one_notion_of_literals :
    (∀ (text : Text) (index : Nat), index < text.length →
      ((literalMask text)[index]? = some true ↔
        openQuote (text.take index) ≠ none ∨ openQuote (text.take (index + 1)) ≠ none)) ∧
    (∀ (text : Text) (stop : Int),
      literalMask (sliceTo text stop) = (literalMask text).take (clampIndex text.length stop)) ∧
    (∀ text : Text, blankLiterals text = text.mapIdx fun index c => if InLiteral text index then ' ' else c) ∧
    (∀ text : Text, innermostOpenParen text = (Matching.ofCode '(' ')'
      (text.mapIdx fun index c => if InLiteral text index then ' ' else c).zipIdx).opened.head?) ∧
    (∀ (window : List Text) (place : Nat × Nat) (c : Char), SeenAt window place c ↔
      ∃ row d, window[place.1]? = some row ∧ row[place.2]? = some d ∧ ¬ InComment row place.2 ∧
        (if InLiteral row place.2 then ' ' else d) = c) ∧
    (∀ window others : List Text, (∀ place c, SeenAt window place c ↔ SeenAt others place c) →
      unmatchedBrace window = unmatchedBrace others) ∧
    ∀ (document : Document) (position : Position) (window : Int),
      (classify document position window).inStringLiteral = true ↔
        ∀ c, InLiteral (document.before position ++ [c]) (document.before position).length := by
  refine ⟨fun text index inside => ?_, fun text stop => literalMask_take _ _, blankLiterals_eq_mapIdx, fun text => ?_,
    fun window place c => ?_, fun window others => unmatchedBrace_congr, fun document position window => ?_⟩
  · rw [getElem?_literalMask, List.getElem?_eq_getElem inside, Option.map_some, Option.some_inj, decide_eq_true_iff,
      InLiteral]
  · rw [innermostOpenParen_eq, blankLiterals_eq_mapIdx]
  · simp only [SeenAt, getElem?_codeOf_eq_some_iff]
    constructor
    · rintro ⟨row, there, free, d, here, shown⟩
      exact ⟨row, d, there, here, free, shown⟩
    · rintro ⟨row, d, there, here, free, shown⟩
      exact ⟨row, there, free, d, here, shown⟩
  · rw [← openQuote_ne_none_iff, ← Option.isSome_iff_ne_none]
    rfl

/-- A call with an escaped quote in its first argument and an open literal as its second one. -/
def quotedCall : Text :=
  "f('it\\'s', \"("

/-- The quote that closes the first argument belongs to it, the escaped one does not close it, and only the
parenthesis outside of both literals is open. -/
theorem one_notion_of_literals_quotedCall :
    8 < quotedCall.length ∧ (literalMask quotedCall)[8]? = some true ∧ openQuote (quotedCall.take 8) ≠ none ∧
      literalMask (sliceTo quotedCall (-4)) = [false, false, true, true, true, true, true, true, true] ∧
      innermostOpenParen quotedCall = some 1 ∧
      unmatchedBrace [quotedCall ++ [openBrace]] = unmatchedBrace [quotedCall ++ [closeBrace]] := by
  obtain ⟨marks, fronts, -, parens, seen, braces, -⟩ := one_notion_of_literals
  have inside : 8 < quotedCall.length := by decide
  have opened : openQuote (quotedCall.take 8) ≠ none := by decide
  refine ⟨inside, (marks quotedCall 8 inside).mpr (.inl opened), opened, (fronts quotedCall (-4)).trans (by decide),
    (parens quotedCall).trans (by decide +kernel), braces _ _ fun place c => ?_⟩
  have same : ([quotedCall ++ [openBrace]] : List Text).map codeOf = [quotedCall ++ [closeBrace]].map codeOf := by
    decide +kernel
  have line (window : List Text) : SeenAt window place c ↔
      ∃ code ∈ (window.map codeOf)[place.1]?, code[place.2]? = some c := by
    simp [SeenAt, and_comm]
  rw [line, line, same]

end InlineCompletion.Scan
