import InlineCompletion.Context.Classify
import InlineCompletion.Proofs.Context.Introductions

/-!
Comments behind the lines above the cursor. The scans over these lines know one kind of comment, whatever the language:
a comment of that kind is never taken for a call, and for the token in front of a brace only where the line stands over
a brace that decides. Comments of the other kinds are read as code.
-/

namespace InlineCompletion

open Text Scan

/-- What begins a comment that runs to the end of the line. -/
def Comment.lineLeader? (language : Text) : Option Text :=
  (leaders language).find? [("#" : Text), "--", "//"].contains

namespace Document

/-- The document with a comment behind one of its lines. -/
def comment (document : Document) (line : Nat) (leader text : Text) : Document :=
  { document with lines := document.lines.modify line (withComment leader text) }

/-- The first line that the scans from a place reach. -/
def scanStart (position : Position) (window : Int) : Int :=
  max 0 (position.line - window)

/-- Where a line stands in the window of a scan. -/
def rowOf (position : Position) (window : Int) (line : Nat) : Nat :=
  (line - scanStart position window).toNat

/-- A line above the cursor that a scan reaches, and behind which a comment begins. -/
structure Commentable (document : Document) (position : Position) (window : Int) (leader : Text) (line : Nat) :
    Prop where
  reached : scanStart position window ≤ line
  above : line < position.line
  given : line < document.lineCount
  takes : TakesComment leader (document.lineAt line)

variable {document : Document} {position : Position} {window : Int} {leader : Text} {line : Nat}

theorem lineAt_modify (given : line < document.lineCount) (f : Text → Text) (other : Int) :
    ({ document with lines := document.lines.modify line f } : Document).lineAt other =
      if other = line then f (document.lineAt other) else document.lineAt other := by
  unfold lineAt
  split
  · next negative => rw [if_neg (by omega)]
  · next natural =>
    obtain ⟨other, rfl⟩ := Int.eq_ofNat_of_zero_le (Int.not_lt.mp natural)
    simp only [List.getElem?_modify, Int.toNat_natCast, Int.natCast_inj]
    by_cases same : other = line
    · subst same
      simp [List.getElem?_eq_getElem given]
    · simp [same, Ne.symm same]

theorem lineAt_comment (given : line < document.lineCount) (leader text : Text) (other : Int) :
    (document.comment line leader text).lineAt other =
      if other = line then withComment leader text (document.lineAt other) else document.lineAt other :=
  lineAt_modify given (withComment leader text) other

theorem getElem?_linesBetween (document : Document) (first last : Int) (offset : Nat) :
    (document.linesBetween first last)[offset]? =
      if offset < (last - first).toNat then some (document.lineAt (first + offset)) else none := by
  unfold linesBetween
  rw [List.getElem?_map]
  split
  · next inside =>
    rw [List.getElem?_range inside]
    rfl
  · next outside => rw [List.getElem?_eq_none (by simpa using outside), Option.map_none]

theorem linesBetween_comment {first last : Int} (reached : first ≤ line) (given : line < document.lineCount)
    (leader text : Text) :
    (document.comment line leader text).linesBetween first last =
      (document.linesBetween first last).modify (line - first).toNat (withComment leader text) := by
  refine List.ext_getElem? fun offset => ?_
  rw [List.getElem?_modify, getElem?_linesBetween, getElem?_linesBetween, lineAt_comment given]
  have same : (line - first).toNat = offset ↔ first + offset = line := by omega
  by_cases here : (line - first).toNat = offset
  · simp only [here, same.mp here, if_true]
    split <;> rfl
  · simp [here, mt same.mpr here]

theorem before_comment (above : line < position.line) (given : line < document.lineCount) (leader text : Text) :
    (document.comment line leader text).before position = document.before position := by
  unfold before
  rw [lineAt_comment given, if_neg (by omega)]

theorem linesAbove_eq (document : Document) (position : Position) (window : Int) :
    document.linesAbove position window =
      document.linesBetween (scanStart position window) position.line ++ [document.before position] := rfl

variable (place : Commentable document position window leader line)
include place

theorem Commentable.getElem? :
    (document.linesBetween (scanStart position window) position.line)[rowOf position window line]? =
      some (document.lineAt line) := by
  have reached := place.reached
  have above := place.above
  unfold rowOf
  rw [getElem?_linesBetween, if_pos (by omega), Int.toNat_of_nonneg (by omega)]
  congr 2
  omega

/-- The window over the commented document is the window with a comment behind one of its lines. -/
theorem Commentable.linesAbove_comment (text : Text) :
    (document.comment line leader text).linesAbove position window =
      (document.linesBetween (scanStart position window) position.line).modify (rowOf position window line)
        (withComment leader text) ++ [document.before position] := by
  rw [linesAbove_eq, before_comment place.above place.given, linesBetween_comment place.reached place.given, rowOf]

end Document

namespace Comment

open Document

/-- No comment with this leader makes a log call of the place, or none. -/
def CallUnseen (language leader : Text) : Prop :=
  ∀ document position window line text, document.language = language →
    Commentable document position window leader line →
      (classify (document.comment line leader text) position window).inLogCall =
        (classify document position window).inLogCall

/-- No comment with this leader makes an object literal of the place, or none, unless the line introduces a brace;
then some comment does. -/
def ObjectUnseen (language leader : Text) : Prop :=
  ∀ document position window line, document.language = language →
    Commentable document position window leader line →
      ((∀ text, (classify (document.comment line leader text) position window).inObjectLiteral =
          (classify document position window).inObjectLiteral) ↔
        ¬ ObjectLiteral.Introduces (rowOf position window line) (document.linesAbove position window))

theorem callUnseen_slashes (language : Text) : CallUnseen language "//" := by
  intro document position window line text same place
  show Call.isLogCall ((document.comment line "//" text).linesAbove position window) = _
  rw [place.linesAbove_comment, Call.isLogCall_withComment place.getElem? place.takes]
  rfl

theorem objectUnseen_slashes (language : Text) : ObjectUnseen language "//" := by
  intro document position window line same place
  have row := place.getElem?
  have inside := (List.getElem?_eq_some_iff.mp row).1
  have whole (text : Text) : (document.comment line "//" text).linesAbove position window =
      (document.linesAbove position window).modify (rowOf position window line) (withComment "//" text) := by
    rw [place.linesAbove_comment, linesAbove_eq, ObjectLiteral.modify_append_of_lt inside]
  simp only [classify, whole]
  refine ObjectLiteral.isOpen_withComment_iff ?_ place.takes
  rw [linesAbove_eq, List.getElem?_append_left inside]
  exact row

/-! Other comments are code. -/

theorem commentable_word {leader : Text} (other : leader = "#" ∨ leader = "--") (language : Text) :
    Commentable ⟨["x", ""], [], [], language⟩ ⟨1, 0⟩ 1 leader 0 := by
  refine ⟨by decide, by decide, Nat.zero_lt_succ _, rfl, ?_⟩
  rcases other with rfl | rfl <;> rfl

theorem not_callUnseen {leader : Text} (other : leader = "#" ∨ leader = "--") (language : Text) :
    ¬ CallUnseen language leader := by
  intro unseen
  have same : Call.isLogCall [withComment leader "print(" "x", ""] = Call.isLogCall ["x", ""] :=
    unseen _ _ _ 0 "print(" rfl (commentable_word other language)
  have called : Call.isLogCall [withComment leader "print(" "x", ""] = true := by
    rcases other with rfl | rfl <;> decide +kernel
  have free : Call.isLogCall ["x", ""] = false := by decide +kernel
  exact Bool.false_ne_true (free.symm.trans (same.symm.trans called))

theorem not_objectUnseen {leader : Text} (other : leader = "#" ∨ leader = "--") (language : Text) :
    ¬ ObjectUnseen language leader := by
  intro unseen
  have none : unmatchedBrace ["x", ""] = none := by decide +kernel
  have apart : ¬ ObjectLiteral.Introduces 0 ["x", ""] := by
    intro introduces
    cases introduces with
    | here found => cases none.symm.trans found
    | outward found => cases none.symm.trans found
  have same : ObjectLiteral.isOpen [withComment leader ['=', openBrace] "x", ""] = ObjectLiteral.isOpen ["x", ""] :=
    (unseen _ _ _ 0 rfl (commentable_word other language)).mpr apart ['=', openBrace]
  have opened : ObjectLiteral.isOpen [withComment leader ['=', openBrace] "x", ""] = true := by
    rcases other with rfl | rfl <;> decide +kernel
  exact Bool.false_ne_true ((ObjectLiteral.isOpen_of_none none).symm.trans (same.symm.trans opened))

/-- Of the comments that run to the end of a line only one kind is passed over by the scans above the cursor. -/
theorem unseen_iff {language leader : Text} (known : lineLeader? language = some leader) :
    (CallUnseen language leader ↔ leader = "//") ∧ (ObjectUnseen language leader ↔ leader = "//") := by
  have kinds : leader = "//" ∨ leader = "#" ∨ leader = "--" := by
    have member : leader ∈ [("#" : Text), "--", "//"] := List.contains_iff_mem.mp (List.find?_some known)
    simp only [List.mem_cons, List.not_mem_nil, or_false] at member
    tauto
  constructor
  · refine ⟨fun unseen => kinds.resolve_right fun other => not_callUnseen other language unseen, ?_⟩
    rintro rfl
    exact callUnseen_slashes language
  · refine ⟨fun unseen => kinds.resolve_right fun other => not_objectUnseen other language unseen, ?_⟩
    rintro rfl
    exact objectUnseen_slashes language

/-- A value on the line above its brace. -/
def braceBelow : Document :=
  ⟨["const x =", [openBrace], "  "], "app.js", "js", "javascript"⟩

/-- A comment behind the value can be seen: a brace alone on its line is introduced by it. -/
theorem unseen_script : lineLeader? braceBelow.language = some "//" ∧
    (∀ text, (classify (braceBelow.comment 0 "//" text) ⟨2, 2⟩ defaultScanWindow).inLogCall =
      (classify braceBelow ⟨2, 2⟩ defaultScanWindow).inLogCall) ∧
    ¬ ∀ text, (classify (braceBelow.comment 0 "//" text) ⟨2, 2⟩ defaultScanWindow).inObjectLiteral =
      (classify braceBelow ⟨2, 2⟩ defaultScanWindow).inObjectLiteral := by
  have known : lineLeader? braceBelow.language = some "//" := by decide +kernel
  have place : Commentable braceBelow ⟨2, 2⟩ defaultScanWindow "//" 0 :=
    ⟨by decide, by decide, by decide, rfl, rfl⟩
  have found : unmatchedBrace (braceBelow.linesAbove ⟨2, 2⟩ defaultScanWindow) = some (1, 0) := by decide +kernel
  have stands : ObjectLiteral.StandsOver (braceBelow.linesAbove ⟨2, 2⟩ defaultScanWindow) 0 1 0 :=
    ⟨by decide, rfl, by decide⟩
  obtain ⟨call, object⟩ := unseen_iff known
  refine ⟨known, fun text => call.mpr rfl braceBelow ⟨2, 2⟩ defaultScanWindow 0 text rfl place, fun unseen => ?_⟩
  exact (object.mpr rfl braceBelow ⟨2, 2⟩ defaultScanWindow 0 rfl place).mp unseen (.here found stands)

end Comment

end InlineCompletion
