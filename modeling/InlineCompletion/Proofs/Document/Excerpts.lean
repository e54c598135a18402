import InlineCompletion.Document.Basic
import InlineCompletion.Proofs.Document.Lines

/-!
An excerpt can be read back: where the text in front of the cursor does not hold the marker, the first marker of the
excerpt is the one of the cursor, and taking it out gives the quoted lines of the document and the place of the cursor
among them.
-/

namespace InlineCompletion

open Text

variable {document : Document} {position : Position} {above below : Int}

theorem cursorMarker_unbroken : '\n' ∉ cursorMarker := by decide

theorem cursorMarker_once : '<' ∉ cursorMarker.tail := by decide

namespace Document

/-- The cursor line with the marker, as an excerpt has it. -/
def markedLine (document : Document) (position : Position) : Text :=
  sliceTo (document.lineAt position.line) position.character ++ cursorMarker ++
    sliceFrom (document.lineAt position.line) position.character

/-- The lines of an excerpt are those of the document around the cursor, the marked one in its place. -/
theorem IsLined.lines_excerpt (lined : document.IsLined) (position : Position) (above below : Int) :
    Text.lines (document.excerpt position above below) =
      document.linesBetween (max 0 (position.line - above)) position.line ++ [document.markedLine position] ++
        document.linesBetween (position.line + 1) (min document.lineCount (position.line + below + 1)) := by
  refine splitOn_join ?_ fun line member => ?_
  · exact List.append_ne_nil_of_left_ne_nil (List.append_ne_nil_of_right_ne_nil _ (List.cons_ne_nil _ _)) _
  rcases List.mem_append.mp member with front | back
  · rcases List.mem_append.mp front with before | here
    · exact lined.linesBetween _ _ line before
    · rw [List.mem_singleton.mp here]
      have part : ∀ piece, piece ⊆ document.lineAt position.line → '\n' ∉ piece := fun _ inside member =>
        lined.lineAt _ (inside member)
      simp only [List.mem_append, not_or]
      exact ⟨⟨part _ (List.take_subset ..), cursorMarker_unbroken⟩, part _ (List.drop_subset ..)⟩
  · exact lined.linesBetween _ _ line back

/-- A column of the line or behind it cuts the line where the document does. -/
theorem markedLine_of_nonneg (right : 0 ≤ position.character) :
    document.markedLine position = document.before position ++ (cursorMarker ++ document.after position) := by
  rw [markedLine, sliceTo_of_nonneg right, sliceFrom_of_nonneg right, List.append_assoc]
  rfl

/-- In front of the marker stands what is in front of the cursor. -/
theorem excerpt_eq_append (right : 0 ≤ position.character) (above below : Int) :
    document.excerpt position above below = unlines (document.linesAbove position above) ++ (cursorMarker ++
      (document.after position ++ (document.linesBetween (position.line + 1)
        (min document.lineCount (position.line + below + 1))).flatMap ('\n' :: ·))) := by
  show unlines (_ ++ [document.markedLine position] ++ _) = _
  rw [markedLine_of_nonneg right, linesAbove, unlines_append (by simp), unlines_concat, unlines_concat]
  simp only [List.append_assoc]

/-- Without the marker it is the text of the quoted lines. -/
theorem unlines_linesAbove_append (early : max 0 (position.line - above) ≤ position.line) {last : Int}
    (late : position.line < last) :
    unlines (document.linesAbove position above) ++
        (document.after position ++ (document.linesBetween (position.line + 1) last).flatMap ('\n' :: ·)) =
      unlines (document.linesBetween (max 0 (position.line - above)) last) := by
  have around : document.linesBetween (max 0 (position.line - above)) last =
      document.linesBetween (max 0 (position.line - above)) position.line ++ [document.lineAt position.line] ++
        document.linesBetween (position.line + 1) last := by
    rw [← linesBetween_single, linesBetween_append early (by omega), linesBetween_append (by omega) (by omega)]
  rw [around, ← before_append_after, unlines_append (by simp), linesAbove, unlines_concat, unlines_concat]
  simp only [List.append_assoc]

end Document

/-- The place behind some lines and a part of the next one. -/
theorem Position.after_unlines {above : List Text} {typed : Text} (free : ∀ line ∈ above, '\n' ∉ line)
    (free' : '\n' ∉ typed) : Position.after (unlines (above ++ [typed])) = ⟨above.length, typed.length⟩ := by
  have breaks : (above.flatMap (· ++ ['\n'])).count '\n' = above.length := by
    induction above with
    | nil => rfl
    | cons line above ih =>
      have later := ih fun other member => free other (List.mem_cons_of_mem _ member)
      have none : line.count '\n' = 0 := List.count_eq_zero.mpr (free line (List.mem_cons_self ..))
      rw [List.flatMap_cons, List.count_append, List.count_append, none, later]
      simp [Nat.add_comm]
  have none : typed.count '\n' = 0 := List.count_eq_zero.mpr free'
  have within : ∀ c ∈ typed.reverse, decide (c ≠ '\n') = true := by
    intro c member
    refine decide_eq_true ?_
    rintro rfl
    exact free' (List.mem_reverse.mp member)
  have before : (above.flatMap (· ++ ['\n'])).reverse.takeWhile (· ≠ '\n') = [] := by
    rcases List.eq_nil_or_concat above with rfl | ⟨above, line, rfl⟩
    · rfl
    · simp
  rw [Position.after, unlines_concat, List.count_append, breaks, none, List.reverse_append,
    List.takeWhile_append_of_pos within, before, List.append_nil, List.length_reverse, Nat.add_zero]

/-- The first marker is the one behind a text without a marker; it is taken out. -/
theorem Document.ofMarked_append {front : Text} (unmarked : ¬ cursorMarker <:+: front) (rest fileName : Text)
    (language : Option Text) : ofMarked (front ++ (cursorMarker ++ rest)) fileName cursorMarker language =
      .ok (.ofText (front ++ rest) fileName language, .after front) := by
  have index : indexOf? cursorMarker (front ++ (cursorMarker ++ rest)) = some front.length :=
    indexOf?_of_once cursorMarker_once unmarked rest
  rw [ofMarked, index]
  dsimp only
  rw [List.take_left, ← List.append_assoc, ← List.length_append, List.drop_left]

/-- The quoted lines and the place of the cursor among them are read back from an excerpt, unless the marker stands in
front of the cursor already. -/
theorem ofMarked_excerpt (text fileName fileName' : Text) (language language' : Option Text) (position : Position)
    {above below : Int} (low : 0 ≤ position.line)
    (high : position.line < (Document.ofText text fileName language).lineCount) (right : 0 ≤ position.character)
    (up : 0 ≤ above) (down : 0 ≤ below)
    (unmarked : ¬ cursorMarker <:+: unlines ((Document.ofText text fileName language).linesAbove position above)) :
    let document := Document.ofText text fileName language
    let first := max 0 (position.line - above)
    let last : Int := min (document.lineCount - 1) (position.line + below)
    (∃ rest, document.excerpt position above below =
      unlines (document.linesAbove position above) ++ (cursorMarker ++ rest)) ∧
    ∃ read, Document.ofMarked (document.excerpt position above below) fileName' cursorMarker language' =
        .ok (read, ⟨position.line - first, min position.character (document.lineAt position.line).length⟩) ∧
      read.lines = (document.lines.take (last + 1).toNat).drop first.toNat := by
  intro document first last
  have lined : document.IsLined := Document.isLined_ofText text fileName language
  have high : position.line < document.lineCount := high
  have marked := document.excerpt_eq_append right above below
  have ends : min (document.lineCount : Int) (position.line + below + 1) = last + 1 := by omega
  have quoted : unlines (document.linesAbove position above) ++ (document.after position ++
      (document.linesBetween (position.line + 1) (last + 1)).flatMap ('\n' :: ·)) =
        unlines (document.linesBetween first (last + 1)) :=
    Document.unlines_linesAbove_append (by omega) (by omega)
  have place : Position.after (unlines (document.linesAbove position above)) =
      ⟨position.line - first, min position.character (document.lineAt position.line).length⟩ := by
    have typed : '\n' ∉ document.before position := fun member => lined.lineAt _ (List.mem_of_mem_take member)
    rw [Document.linesAbove, Position.after_unlines (lined.linesBetween _ _) typed, Document.length_linesBetween,
      Document.before, List.length_take, Position.mk.injEq]
    omega
  refine ⟨⟨_, marked⟩, .ofText (unlines (document.linesBetween first (last + 1))) fileName' language', ?_, ?_⟩
  · rw [marked, Document.ofMarked_append unmarked, ends, quoted, place]
  · have some : document.linesBetween first (last + 1) ≠ [] := by
      rw [← List.length_pos_iff, Document.length_linesBetween]
      omega
    rw [← Document.linesBetween_eq (by omega) (by omega)]
    exact splitOn_join some (lined.linesBetween first (last + 1))

/-- Text with the beginning of a marker on its second line and a whole one on its third. -/
def markedText : Text :=
  "a\n<CURSx\nb <CURSOR>\nc"

/-- Behind the beginning of a marker the whole one is found, and not the one below. -/
theorem ofMarked_excerpt_begun :
    let document := Document.ofText markedText "a.txt" none
    (0 : Int) ≤ 1 ∧ (1 : Int) < document.lineCount ∧ (0 : Int) ≤ 5 ∧ (0 : Int) ≤ 0 ∧
      ¬ cursorMarker <:+: unlines (document.linesAbove ⟨1, 5⟩ 0) ∧
      document.excerpt ⟨1, 5⟩ 0 1 = ("<CURS<CURSOR>x\nb <CURSOR>" : Text) ∧
      ∃ read, Document.ofMarked (document.excerpt ⟨1, 5⟩ 0 1) "untitled.txt" cursorMarker none = .ok (read, ⟨0, 5⟩) ∧
        read.lines = [("<CURSx" : Text), "b <CURSOR>"] := by
  intro document
  have low : (0 : Int) ≤ 1 := by decide
  have high : (1 : Int) < document.lineCount := by decide +kernel
  have right : (0 : Int) ≤ 5 := by decide
  have unmarked : ¬ cursorMarker <:+: unlines (document.linesAbove ⟨1, 5⟩ 0) := by decide +kernel
  obtain ⟨-, read, parsed, lines⟩ :=
    ofMarked_excerpt markedText "a.txt" "untitled.txt" none none ⟨1, 5⟩ low high right (Int.le_refl 0) low unmarked
  exact ⟨low, high, right, Int.le_refl 0, unmarked, by decide +kernel, read, parsed, lines.trans (by decide +kernel)⟩

end InlineCompletion
