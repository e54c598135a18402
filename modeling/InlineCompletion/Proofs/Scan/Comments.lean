import InlineCompletion.Context.Call
import InlineCompletion.Proofs.Scan.Literals

/-!
Comments at the end of a line, as the scans over a window see them. A comment behind a line without open literals
begins where it was put, so that the scans for the enclosing brace and for the open call pass over it.
-/

namespace InlineCompletion

namespace Scan

open Text Standing

/-- A line behind which a comment begins: no literal is open at its end, and it holds no comment yet. -/
structure TakesComment (leader line : Text) : Prop where
  closed : openQuote line = none
  absent : findOutside line leader 0 = .absent

/-- The line with a space and a comment behind it. -/
def withComment (leader text line : Text) : Text :=
  line ++ ' ' :: (leader ++ text)

variable {line : Text} {depth k : Nat} {upwards others window : List Text}

/-- A search goes on behind a line in which it found nothing. -/
theorem findFrom_withComment (standing : Standing) (index : Nat) (text : Text)
    (free : (standing.through line).quote = none)
    (absent : findFrom "//" line (literalMask.go standing.quote standing.escaped line) index = .absent) :
    findFrom "//" (withComment "//" text line)
        (literalMask.go standing.quote standing.escaped (withComment "//" text line)) index =
      .at (index + line.length + 1) := by
  induction line generalizing standing index with
  | nil =>
    obtain ⟨quote, escaped⟩ := standing
    obtain rfl : quote = none := free
    cases escaped <;> rfl
  | cons c rest ih =>
    rw [literalMask_go_cons, findFrom] at absent
    have same : startsWith (c :: withComment "//" text rest) "//" = startsWith (c :: rest) "//" := by
      cases rest with
      | nil =>
        have blank : ('/' == ' ') = false := rfl
        simp [startsWith, withComment, List.isPrefixOf, blank]
      | cons d more => rfl
    split at absent
    · cases absent
    · next passed =>
      have unfolded : withComment "//" text (c :: rest) = c :: withComment "//" text rest := rfl
      rw [unfolded, literalMask_go_cons, findFrom, same, if_neg (by simpa using passed), List.tail_cons,
        ih _ _ free absent, List.length_cons]
      congr 1
      omega

/-- What is dropped is the comment; the space in front of it stays. -/
theorem dropComment_withComment (takes : TakesComment "//" line) (text : Text) :
    dropComment (withComment "//" text line) = line ++ [' '] := by
  have found : findOutside (withComment "//" text line) "//" 0 = .at (line.length + 1) := by
    rw [← Nat.zero_add line.length]
    exact findFrom_withComment outside 0 text (openQuote_eq line ▸ takes.closed) takes.absent
  have cut : withComment "//" text line = (line ++ [' ']) ++ ("//" ++ text) := by simp [withComment]
  unfold dropComment
  rw [found, cut]
  exact List.take_left' (by simp)

theorem dropComment_of_absent (absent : findOutside line "//" 0 = .absent) : dropComment line = line := by
  unfold dropComment
  rw [absent]

theorem codeOf_withComment (takes : TakesComment "//" line) (text : Text) :
    codeOf (withComment "//" text line) = codeOf line ++ [' '] := by
  unfold codeOf
  rw [dropComment_withComment takes, dropComment_of_absent takes.absent, blankLiterals_eq, blankLiterals_eq,
    code_append]
  simp [code]

/-- The scan for the enclosing brace looks at the code of the lines only. -/
theorem seekBraceUp_congr
    (same : upwards.map (fun line depth => seekBrace depth (codeOf line).reverse) =
      others.map fun line depth => seekBrace depth (codeOf line).reverse) :
    seekBraceUp depth upwards = seekBraceUp depth others := by
  induction upwards generalizing others depth with
  | nil => rw [List.map_eq_nil_iff.mp same.symm]
  | cons line above ih =>
    cases others with
    | nil => cases same
    | cons other more =>
      obtain ⟨here, rest⟩ := List.cons_eq_cons.mp same
      have here : seekBrace depth (codeOf line).reverse = seekBrace depth (codeOf other).reverse := congrFun here depth
      have size : above.length = more.length := by simpa using congrArg List.length rest
      rw [seekBraceUp, seekBraceUp, here, size]
      split
      · rfl
      · rfl
      · exact ih rest

theorem map_modify_eq {α β : Type} {f : α → α} {g : α → β} {l : List α} {a : α} (given : l[k]? = some a)
    (same : g (f a) = g a) : (l.modify k f).map g = l.map g := by
  refine List.ext_getElem? fun i => ?_
  rw [List.getElem?_map, List.getElem?_map, List.getElem?_modify]
  by_cases here : k = i
  · subst here
    simp [given, same]
  · simp [here]

/-- A comment behind one of the lines leaves the enclosing brace where it is. -/
theorem unmatchedBrace_withComment (given : window[k]? = some line) (takes : TakesComment "//" line) (text : Text) :
    unmatchedBrace (window.modify k (withComment "//" text)) = unmatchedBrace window := by
  refine seekBraceUp_congr ?_
  rw [List.map_reverse, List.map_reverse, map_modify_eq given]
  funext depth
  rw [codeOf_withComment takes, List.reverse_append]
  rfl

end Scan

namespace Call

open Text Scan

variable {typed line : Text} {above others front : List Text} {k : Nat}

/-- The search for the open call looks at the lines above without their comments and the white space at their end. -/
theorem openFrom_go_congr
    (same : above.map (fun line => trimRight (dropComment line)) = others.map fun line => trimRight (dropComment line)) :
    openFrom.go typed above = openFrom.go typed others := by
  induction above generalizing others typed with
  | nil => rw [List.map_eq_nil_iff.mp same.symm]
  | cons line above ih =>
    cases others with
    | nil => cases same
    | cons other more =>
      obtain ⟨here, rest⟩ := List.cons_eq_cons.mp same
      simp only [openFrom.go, here, ih rest]

/-- Whether a place is in a log call depends on the call that is found from its line upwards. -/
theorem isLogCall_concat (front : List Text) (typed : Text) :
    isLogCall (front ++ [typed]) = (openFrom typed front.reverse).any isLogText := by
  unfold isLogCall openText
  rw [List.reverse_append, List.reverse_singleton, List.singleton_append]
  cases found : openFrom typed front.reverse with
  | none => simp [found]
  | some call => simp [found]

/-- A comment behind one of the lines above is no part of the open call. -/
theorem isLogCall_withComment (given : front[k]? = some line) (takes : TakesComment "//" line) (text typed : Text) :
    isLogCall (front.modify k (withComment "//" text) ++ [typed]) = isLogCall (front ++ [typed]) := by
  have same : (front.modify k (withComment "//" text)).reverse.map (fun line => trimRight (dropComment line)) =
      front.reverse.map fun line => trimRight (dropComment line) := by
    rw [List.map_reverse, List.map_reverse, map_modify_eq given]
    rw [dropComment_withComment takes, dropComment_of_absent takes.absent, trimRight_append_blank rfl]
  rw [isLogCall_concat, isLogCall_concat, openFrom, openFrom, openFrom_go_congr same]

end Call

end InlineCompletion
