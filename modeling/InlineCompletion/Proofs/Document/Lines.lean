import InlineCompletion.Document.Basic
import InlineCompletion.Proofs.Text.Joins

/-!
The lines of a document, and those between two of its lines.
-/

namespace InlineCompletion.Document

/-- Made of lines that hold no line break. -/
def IsLined (document : Document) : Prop :=
  ∀ line ∈ document.lines, '\n' ∉ line

theorem isLined_ofText (text fileName : Text) (language : Option Text) :
    (ofText text fileName language).IsLined :=
  fun _ member => Text.not_mem_of_mem_splitOn member

variable {document other : Document} {position position' : Position}

theorem IsLined.lineAt (lined : document.IsLined) (line : Int) : '\n' ∉ document.lineAt line := by
  unfold Document.lineAt
  split
  · exact List.not_mem_nil
  · cases found : document.lines[line.toNat]? with
    | none => exact List.not_mem_nil
    | some text => exact lined text (List.mem_of_getElem? found)

theorem IsLined.linesBetween (lined : document.IsLined) (first last : Int) :
    ∀ line ∈ document.linesBetween first last, '\n' ∉ line := by
  intro line member
  obtain ⟨offset, -, rfl⟩ := List.mem_map.mp member
  exact lined.lineAt _

theorem IsLined.linesAbove (lined : document.IsLined) (position : Position) (window : Int) :
    ∀ line ∈ document.linesAbove position window, '\n' ∉ line := by
  intro line member
  rcases List.mem_append.mp member with above | here
  · exact lined.linesBetween _ _ line above
  · cases List.mem_singleton.mp here
    exact fun inside => lined.lineAt _ (List.mem_of_mem_take inside)

theorem before_eq_of_linesAbove_eq {window window' : Int}
    (same : other.linesAbove position' window' = document.linesAbove position window) :
    other.before position' = document.before position :=
  (List.append_inj' same rfl).2 |> List.singleton_inj.mp

theorem length_linesBetween (first last : Int) :
    (document.linesBetween first last).length = (last - first).toNat := by
  simp [linesBetween]

theorem linesBetween_single (line : Int) : document.linesBetween line (line + 1) = [document.lineAt line] := by
  have one : (line + 1 - line).toNat = 1 := by omega
  rw [linesBetween, one, List.range_one, List.map_singleton, Int.natCast_zero, Int.add_zero]

/-- Within the document these are the lines themselves. -/
theorem linesBetween_eq {first last : Int} (early : 0 ≤ first) (late : last ≤ document.lineCount) :
    document.linesBetween first last = (document.lines.take last.toNat).drop first.toNat := by
  refine List.ext_getElem? fun offset => ?_
  rw [linesBetween, List.getElem?_map, List.getElem?_drop, List.getElem?_take]
  by_cases inside : offset < (last - first).toNat
  · have before : first.toNat + offset < last.toNat := by omega
    have there : first.toNat + offset < document.lines.length := by
      unfold lineCount at late
      omega
    have place : (first + offset).toNat = first.toNat + offset := by omega
    rw [List.getElem?_range inside, if_pos before, List.getElem?_eq_getElem there, Option.map_some, lineAt,
      if_neg (by omega), place, List.getElem?_eq_getElem there]
    rfl
  · rw [List.getElem?_eq_none (by simpa using inside), if_neg (by omega)]
    rfl

theorem linesBetween_append {first middle last : Int} (early : first ≤ middle) (late : middle ≤ last) :
    document.linesBetween first middle ++ document.linesBetween middle last =
      document.linesBetween first last := by
  have sizes : (last - first).toNat = (middle - first).toNat + (last - middle).toNat := by omega
  unfold linesBetween
  rw [sizes, List.range_add, List.map_append, List.map_map]
  congr 1
  refine List.map_congr_left fun offset _ => ?_
  rw [Function.comp_apply]
  congr 1
  omega

theorem length_linesAbove_le (document : Document) (position : Position) (window : Int) :
    (document.linesAbove position window).length ≤ window.toNat + 1 := by
  rw [linesAbove, List.length_append, length_linesBetween, List.length_singleton]
  omega

/-- A wider window has more lines in front, and only if the narrow one is full. -/
theorem linesAbove_grow (document : Document) (position : Position) {window wider : Int}
    (le : window ≤ wider) : ∃ more,
      document.linesAbove position wider = more ++ document.linesAbove position window ∧
        (more ≠ [] → (document.linesAbove position window).length = window.toNat + 1) := by
  by_cases above : max 0 (position.line - window) ≤ position.line
  · refine ⟨document.linesBetween (max 0 (position.line - wider)) (max 0 (position.line - window)), ?_,
      fun some => ?_⟩
    · unfold linesAbove
      rw [← List.append_assoc, linesBetween_append (by omega) above]
    · have some := List.length_pos_iff.mpr some
      rw [length_linesBetween] at some
      rw [linesAbove, List.length_append, length_linesBetween, List.length_singleton]
      omega
  · have none : document.linesBetween (max 0 (position.line - window)) position.line = [] :=
      List.eq_nil_of_length_eq_zero (by rw [length_linesBetween]; omega)
    refine ⟨document.linesBetween (max 0 (position.line - wider)) position.line, ?_, fun some => ?_⟩
    · unfold linesAbove
      rw [none, List.nil_append]
    · have some := List.length_pos_iff.mpr some
      rw [length_linesBetween] at some
      rw [linesAbove, none, List.nil_append, List.length_singleton]
      omega

end InlineCompletion.Document
