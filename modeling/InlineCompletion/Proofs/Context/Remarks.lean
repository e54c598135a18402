import InlineCompletion.Prompt.Choice
import InlineCompletion.Reply.Cleaning
import InlineCompletion.Proofs.Context.Comments
import InlineCompletion.Proofs.Context.Wording

/-!
The place behind a comment that has its line to itself. Whatever the comment says, the place is known to be in a
comment, and the lines above decide whether it is in an object literal. The scans for literals and for the open call
do not know of the comment, though, so that some words make a string or a log call of the place, and the reply to a
prompt that asks for the commented code is cleaned as one.
-/

namespace InlineCompletion

open Text Scan

/-- A line of a document for a comment and nothing else, in a language whose comments begin with slashes. -/
structure Remark where
  document : Document
  row : Nat
  margin : Text
  window : Int
  given : row < document.lineCount
  blank : allBlank margin = true
  slashes : Comment.leaders document.language = [("//" : Text), "/*"]

/-- A line that does not matter for the brace does not matter for what the brace is. -/
theorem ObjectLiteral.isOpen_concat {above : List Text} {line : Text}
    (same : unmatchedBrace (above ++ [line]) = unmatchedBrace above) : isOpen (above ++ [line]) = isOpen above := by
  cases found : unmatchedBrace above with
  | none => rw [isOpen_of_none found, isOpen_of_none (same.trans found)]
  | some brace =>
    obtain ⟨index, column⟩ := brace
    have inside := unmatchedBrace_lt found
    have here : (above ++ [line]).getD index [] = above.getD index [] := by
      rw [List.getD_eq_getElem?_getD, List.getD_eq_getElem?_getD, List.getElem?_append_left inside]
    have front : (above ++ [line]).take index = above.take index := List.take_append_of_le_length inside.le
    have introduced : introduction (above ++ [line]) index column = introduction above index column := by
      rw [introduction, introduction, here, front]
    have outward : beforeLabel (above ++ [line]) index column = beforeLabel above index column := by
      rw [beforeLabel, beforeLabel, here, front]
    rw [isOpen_of_brace found, isOpen_of_brace (same.trans found), introduced, outward]

/-- Lines between two others are read one by one. -/
theorem Document.linesBetween_congr {document other : Document} {first last : Int}
    (same : ∀ line, first ≤ line → line < last → document.lineAt line = other.lineAt line) :
    document.linesBetween first last = other.linesBetween first last := by
  refine List.map_congr_left fun offset inside => same _ (Int.le_add_of_nonneg_right (Int.natCast_nonneg _)) ?_
  have bound := List.mem_range.mp inside
  omega

namespace Remark

variable (remark : Remark) (text : Text)

/-- The line with the words of the comment. -/
def line : Text :=
  remark.margin ++ ("//" ++ text)

def page : Document :=
  { remark.document with lines := remark.document.lines.set remark.row (remark.line text) }

/-- The end of the line. -/
def cursor : Position :=
  ⟨remark.row, (remark.line text).length⟩

def facts : Classification :=
  classify (remark.page text) (remark.cursor text) remark.window

/-- What the prompt is chosen by. -/
def place (excerpt : Text) : Place :=
  ⟨remark.facts text, remark.page text, remark.cursor text, excerpt⟩

/-- What is left of a reply at the end of the line. -/
def cleaned (raw : Text) (existing : List Text) : Text :=
  Reply.clean raw (remark.facts text) (remark.line text) existing

/-- The lines of the window above the comment. -/
def above : List Text :=
  remark.document.linesBetween (max 0 (remark.row - remark.window)) remark.row

theorem lineAt_page (other : Int) :
    (remark.page text).lineAt other = if other = remark.row then remark.line text else remark.document.lineAt other := by
  rw [page, List.set_eq_modify]
  exact Document.lineAt_modify remark.given (fun _ => remark.line text) other

theorem before_page : (remark.page text).before (remark.cursor text) = remark.line text := by
  have here : (remark.page text).lineAt (remark.cursor text).line = remark.line text :=
    (remark.lineAt_page text remark.row).trans (if_pos rfl)
  rw [Document.before, here]
  exact List.take_length

theorem linesAbove_page :
    (remark.page text).linesAbove (remark.cursor text) remark.window = remark.above ++ [remark.line text] := by
  have same : (remark.page text).linesBetween (Document.scanStart (remark.cursor text) remark.window) remark.row =
      remark.above :=
    Document.linesBetween_congr fun line _ before => (remark.lineAt_page text line).trans (if_neg (Int.ne_of_lt before))
  rw [Document.linesAbove_eq, before_page]
  exact congrArg (· ++ [remark.line text]) same

/-! The line, as the scans see it. -/

theorem isBlank_margin : ∀ c ∈ remark.margin, isBlank c = true :=
  List.all_eq_true.mp remark.blank

theorem margin_plain : ∀ c ∈ remark.margin, isQuote c = false ∧ c ≠ backslash := by
  intro c member
  have blank := remark.isBlank_margin c member
  constructor
  · by_contra given
    cases blank.symm.trans (not_isBlank_of_isQuote (Bool.of_not_eq_false given))
  · rintro rfl
    cases blank

theorem slashes_plain : ∀ c ∈ ("//" : Text), isQuote c = false ∧ c ≠ backslash := by
  intro c member
  obtain rfl : c = '/' := by simpa using member
  exact ⟨rfl, by decide⟩

theorem openQuote_line : openQuote (remark.line text) = openQuote text := by
  rw [line, openQuote_append_of_lead remark.margin_plain, openQuote_append_of_lead slashes_plain]

/-- No literal is open in front of the words. -/
theorem not_inLiteral_line {start : Nat} (before : start ≤ remark.margin.length) :
    ¬ InLiteral (remark.line text) start := by
  have free (k : Nat) (before : k ≤ remark.margin.length + 2) : openQuote ((remark.line text).take k) = none := by
    have split : remark.line text = (remark.margin ++ "//") ++ text := (List.append_assoc ..).symm
    rw [split, List.take_append_of_le_length (by simpa using before), ← List.nil_append (List.take _ _)]
    refine openQuote_append_of_plain fun c member => ?_
    rcases List.mem_append.mp (List.mem_of_mem_take member) with blank | slash
    · exact (remark.margin_plain c blank).1
    · exact (slashes_plain c slash).1
  rintro (opened | opened)
  · exact opened (free start (by omega))
  · exact opened (free (start + 1) (by omega))

theorem commentAt_line : CommentAt (remark.line text) remark.margin.length := by
  refine ⟨?_, remark.not_inLiteral_line text le_rfl⟩
  rw [line, List.drop_left]
  exact List.isPrefixOf_iff_prefix.mpr (List.prefix_append ..)

theorem not_commentAt_margin {start : Nat} (before : start < remark.margin.length) :
    ¬ CommentAt (remark.line text) start := by
  rintro ⟨slashes, -⟩
  have blank := remark.isBlank_margin _ (List.getElem_mem before)
  rw [line, List.drop_append_of_le_length before.le, List.drop_eq_getElem_cons before] at slashes
  obtain ⟨same, -⟩ := List.cons_prefix_cons.mp (List.isPrefixOf_iff_prefix.mp slashes)
  rw [← same] at blank
  cases blank

/-- Nothing but white space is left of the line. -/
theorem codeOf_line : codeOf (remark.line text) = remark.margin := by
  have plain : blankLiterals remark.margin = remark.margin := by
    rw [blankLiterals_eq, Standing.code_of_plain (fun c member => (remark.margin_plain c member).1) rfl]
  have dropped : dropComment (remark.line text) = remark.margin := by
    rcases dropComment_cases (remark.line text) with ⟨start, cut, comment, first⟩ | ⟨-, none⟩
    · have here : start = remark.margin.length := by
        refine Nat.le_antisymm (Nat.not_lt.mp fun behind => first _ behind (remark.commentAt_line text)) ?_
        exact Nat.not_lt.mp fun before => remark.not_commentAt_margin text before comment
      rw [cut, here, line, List.take_left]
    · exact absurd (remark.commentAt_line text) (none _)
  rw [codeOf, dropped, plain]

/-- Whether the place is in an object literal is decided above the comment. -/
theorem isOpen_line : ObjectLiteral.isOpen (remark.above ++ [remark.line text]) = ObjectLiteral.isOpen remark.above := by
  refine ObjectLiteral.isOpen_concat ?_
  have plain : ∀ c ∈ remark.margin.reverse, c ≠ closeBrace ∧ c ≠ openBrace ∧ c ≠ ';' := by
    intro c member
    have blank := remark.isBlank_margin c (List.mem_reverse.mp member)
    refine ⟨?_, ?_, ?_⟩ <;> rintro rfl <;> cases blank
  rw [unmatchedBrace, List.reverse_append, List.reverse_singleton, List.singleton_append, seekBraceUp, codeOf_line,
    seekBrace_of_plain plain]
  rfl

theorem isComment_line : Comment.isComment (remark.line text) remark.document.language = true := by
  have begins : Comment.holdsLeader (remark.line text) "//" = true := by
    have trimmed : trimLeft (remark.line text) = "//" ++ text :=
      (List.dropWhile_append_of_pos remark.isBlank_margin).trans rfl
    rw [Comment.holdsLeader, trimmed, Bool.or_eq_true]
    exact .inl (List.isPrefixOf_iff_prefix.mpr (List.prefix_append ..))
  rw [Comment.isComment, remark.slashes, List.any_cons, begins, Bool.true_or, Bool.or_true]

/-! What is known of the place. -/

theorem inComment_facts : (remark.facts text).inComment = true := by
  rw [facts, classify, before_page]
  exact remark.isComment_line text

theorem inStringLiteral_facts : (remark.facts text).inStringLiteral = (openQuote text).isSome := by
  rw [facts, classify, before_page, openQuote_line]

theorem inLogCall_facts : (remark.facts text).inLogCall = Call.isLogCall (remark.above ++ [remark.line text]) := by
  rw [facts, classify, linesAbove_page]

theorem inObjectLiteral_facts : (remark.facts text).inObjectLiteral = ObjectLiteral.isOpen remark.above := by
  rw [facts, classify, linesAbove_page, isOpen_line]

theorem category_facts : (remark.facts text).category = .ofExtension remark.document.extension := rfl

/-- A comment that is asked about is the case wherever no file category comes first. -/
theorem kind_place_iff (excerpt : Text) : (remark.place text excerpt).kind = .comment ↔
    FileCategory.ofExtension remark.document.extension = .none := by
  have inComment : (remark.place text excerpt).classification.inComment = true := remark.inComment_facts text
  have category : (remark.place text excerpt).classification.category = .ofExtension remark.document.extension :=
    remark.category_facts text
  unfold Place.kind
  dsimp only
  rw [inComment, category]
  cases FileCategory.ofExtension remark.document.extension with
  | markup => simp; split <;> simp
  | _ => simp

/-! Places at which words are seen. -/

theorem leaders_plaintext : Comment.leaders "plaintext" = [("//" : Text), "/*"] := by decide +kernel

/-- A comment below a call and a line that may leave a literal open. -/
def below (callee : Text) (quote : Option Char) : Remark where
  document := ⟨Call.callAbove callee quote ++ [[]], [], [], "plaintext"⟩
  row := 2
  margin := []
  window := defaultScanWindow
  given := by simp [Document.lineCount, Call.callAbove]
  blank := rfl
  slashes := leaders_plaintext

theorem inLogCall_below (callee : Text) (quote : Option Char) :
    ((below callee quote).facts text).inLogCall = Call.isLogCall (Call.callAbove callee quote ++ ["//" ++ text]) :=
  (below callee quote).inLogCall_facts text

theorem clean_of_plain {raw : Text} (visible : allBlank raw = false) (unreasoned : Reasoning.strip raw = raw)
    (unfenced : Fence.extract raw = raw) (facts : Classification) (typed : Text) (existing : List Text) :
    Reply.clean raw facts typed existing =
      if allBlank (Reply.cleanFor facts typed existing raw) then [] else Reply.cleanFor facts typed existing raw := by
  have unwrapped : Reply.unwrap facts raw = raw := by
    rw [Reply.unwrap, unreasoned, unfenced, ite_self]
  rw [Reply.clean, if_neg (by simp [visible]), unwrapped]

/-- A reply in quotes loses them exactly behind words that leave a literal open. -/
theorem cleaned_quoted_iff : remark.cleaned text "\"x\"" [] = "x" ↔ openQuote text ≠ none := by
  have message : Reply.cleanLogMessage "\"x\"" = "x" := by decide +kernel
  have arguments : Reply.cleanLogArguments "\"x\"" = "\"x\"" := by decide +kernel
  have literal : Reply.cleanStringLiteral "\"x\"" (remark.line text) = "x" := by
    unfold Reply.cleanStringLiteral
    split <;> decide +kernel
  have property : ReplyProperty.extract "\"x\"" [] = [] := by decide +kernel
  have code : Reply.cleanCode "\"x\"" = "\"x\"" := by decide +kernel
  rw [cleaned, clean_of_plain (by decide) (by decide +kernel) (by decide +kernel), Reply.cleanFor,
    inStringLiteral_facts, message, arguments, literal, property, code, ← Option.isSome_iff_ne_none]
  cases (remark.facts text).inLogCall <;> cases (openQuote text).isSome <;>
    cases (remark.facts text).inObjectLiteral <;> decide

/-- A reply in parentheses loses them exactly in a log call, where no literal is open. -/
theorem cleaned_parens_iff (closed : openQuote text = none) :
    remark.cleaned text "(x)" [] = "x" ↔ (remark.facts text).inLogCall = true := by
  have arguments : Reply.cleanLogArguments "(x)" = "x" := by decide +kernel
  have property : ReplyProperty.extract "(x)" [] = [] := by decide +kernel
  have code : Reply.cleanCode "(x)" = "(x)" := by decide +kernel
  have outside : (remark.facts text).inStringLiteral = false := by rw [inStringLiteral_facts, closed, Option.isSome_none]
  rw [cleaned, clean_of_plain (by decide) (by decide +kernel) (by decide +kernel), Reply.cleanFor, outside, arguments,
    property, code]
  simp only [Bool.false_eq_true, if_false]
  cases (remark.facts text).inLogCall <;> cases (remark.facts text).inObjectLiteral <;> decide

/-! Words that are seen, and words that are not. -/

theorem inStringLiteral_eq_iff :
    (remark.facts text).inStringLiteral = (remark.facts []).inStringLiteral ↔ openQuote text = none := by
  rw [inStringLiteral_facts, inStringLiteral_facts]
  exact Bool.eq_false_iff.trans (not_congr Option.isSome_iff_ne_none) |>.trans not_not

variable {text}

theorem inLogCall_of_nests (nests : NestsAnywhere text) :
    (remark.facts text).inLogCall = (remark.facts []).inLogCall := by
  have slashes : ['/'] <:+ remark.margin ++ "//" := ⟨remark.margin ++ ['/'], by simp⟩
  have words (text : Text) : remark.line text = (remark.margin ++ "//") ++ text := (List.append_assoc ..).symm
  rw [inLogCall_facts, inLogCall_facts, words, words, Call.isLogCall_append_text nests slashes, List.append_nil]

theorem nests_of_inLogCall (same : ∀ callee quote,
    ((below callee quote).facts text).inLogCall = ((below callee quote).facts []).inLogCall) : NestsAnywhere text := by
  refine nestsAnywhere_iff.mpr ?_
  rintro ⟨quote, _⟩ rfl known
  by_contra seen
  obtain ⟨callee, differs⟩ := Call.exists_isLogCall_ne known seen
  have agree := same callee quote
  rw [inLogCall_below, inLogCall_below] at agree
  exact differs agree

theorem cleaned_of_unseen (closed : openQuote text = none) (nests : NestsAnywhere text) (raw : Text)
    (existing : List Text) : remark.cleaned text raw existing = remark.cleaned [] raw existing := by
  have outside : (remark.facts text).inStringLiteral = false := by rw [inStringLiteral_facts, closed, Option.isSome_none]
  have outsideBefore : (remark.facts []).inStringLiteral = false := remark.inStringLiteral_facts []
  have unwrapped : Reply.unwrap (remark.facts text) raw = Reply.unwrap (remark.facts []) raw := rfl
  have same (reply : Text) : Reply.cleanFor (remark.facts text) (remark.line text) existing reply =
      Reply.cleanFor (remark.facts []) (remark.line []) existing reply := by
    rw [Reply.cleanFor, Reply.cleanFor, outside, outsideBefore, remark.inLogCall_of_nests nests, inObjectLiteral_facts,
      inObjectLiteral_facts]
    rfl
  rw [cleaned, cleaned, Reply.clean, Reply.clean, unwrapped, same]

/-- The words of a comment make a string of its place exactly if they leave a literal open. They make no log call of
any place, nor end one, exactly if their parentheses match. -/
theorem words_unseen_iff (text : Text) :
    (∀ remark : Remark, (remark.facts text).inComment = true ∧
      (remark.facts text).inStringLiteral = (openQuote text).isSome) ∧
    ((∀ remark : Remark, (remark.facts text).inStringLiteral = (remark.facts []).inStringLiteral) ↔
      openQuote text = none) ∧
    ((∀ remark : Remark, (remark.facts text).inLogCall = (remark.facts []).inLogCall) ↔ NestsAnywhere text) ∧
    ((∀ (remark : Remark) (excerpt raw : Text) (existing : List Text), (remark.place text excerpt).kind = .comment →
        remark.cleaned text raw existing = remark.cleaned [] raw existing) ↔
      openQuote text = none ∧ NestsAnywhere text) := by
  refine ⟨fun remark => ⟨remark.inComment_facts text, remark.inStringLiteral_facts text⟩, ?_, ?_, ?_, ?_⟩
  · exact ⟨fun same => ((below [] none).inStringLiteral_eq_iff text).mp (same _),
      fun closed remark => (remark.inStringLiteral_eq_iff text).mpr closed⟩
  · exact ⟨fun same => nests_of_inLogCall fun callee quote => same _,
      fun nests remark => remark.inLogCall_of_nests nests⟩
  · intro same
    have cleaned (callee : Text) (quote : Option Char) (raw : Text) :
        (below callee quote).cleaned text raw [] = (below callee quote).cleaned [] raw [] :=
      same _ [] raw [] (((below callee quote).kind_place_iff text []).mpr rfl)
    have closed : openQuote text = none := by
      by_contra opened
      have bare := ((below [] none).cleaned_quoted_iff text).mpr opened
      rw [cleaned] at bare
      exact (((below [] none).cleaned_quoted_iff []).mp bare) rfl
    refine ⟨closed, nests_of_inLogCall fun callee quote => ?_⟩
    rw [Bool.eq_iff_iff, ← cleaned_parens_iff _ _ closed, ← cleaned_parens_iff _ _ rfl, cleaned]
  · rintro ⟨closed, nests⟩ remark _ raw existing _
    exact remark.cleaned_of_unseen closed nests raw existing

/-- An apostrophe is seen, and so is an open parenthesis, but not a remark that has its parentheses closed. -/
theorem words_unseen_iff_apostrophe :
    (¬ ∀ remark : Remark, (remark.facts "don't").inStringLiteral = (remark.facts []).inStringLiteral) ∧
      (¬ ∀ remark : Remark, (remark.facts "call print(").inLogCall = (remark.facts []).inLogCall) ∧
      ∀ (remark : Remark) (raw : Text) (existing : List Text), remark.document.extension = [] →
        remark.cleaned "add (a, b)" raw existing = remark.cleaned [] raw existing := by
  obtain ⟨-, strings, -, -⟩ := words_unseen_iff "don't"
  obtain ⟨-, -, calls, -⟩ := words_unseen_iff "call print("
  obtain ⟨-, -, -, replies⟩ := words_unseen_iff "add (a, b)"
  refine ⟨mt strings.mp (by decide +kernel), mt calls.mp (by decide +kernel), fun remark raw existing code => ?_⟩
  have unseen : openQuote "add (a, b)" = none ∧ NestsAnywhere "add (a, b)" := by decide +kernel
  exact replies.mpr unseen remark [] raw existing ((remark.kind_place_iff _ _).mpr (by rw [code]; rfl))

end Remark

end InlineCompletion
