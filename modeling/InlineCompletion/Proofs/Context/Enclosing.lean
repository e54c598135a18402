import InlineCompletion.Context.ObjectLiteral
import InlineCompletion.Proofs.Scan.Depth
import InlineCompletion.Proofs.Symbol.Reach
import InlineCompletion.Proofs.Text.Pieces
import InlineCompletion.Proofs.Text.Trims

/-!
What decides whether a place is in an object literal: the text in front of the enclosing brace, or the next brace
outwards where this text is a bare label that may be a key. Every step outwards makes the window shorter, so the
steps come to an end and their bound does not matter.
-/

namespace InlineCompletion.ObjectLiteral

open Text

variable {window : List Text} {index column fuel : Nat} {text : Text}

/-! Steps outwards. -/

theorem codeOf_length_le (line : Text) : (Scan.codeOf line).length ≤ line.length := by
  have kept : (Scan.dropComment line).length ≤ line.length := by
    unfold Scan.dropComment
    split
    · exact List.length_take_le' ..
    · exact Nat.le_refl _
  simpa [Scan.codeOf, Scan.blankLiterals, Scan.length_literalMask] using kept

/-- The brace is one of the characters of its line. -/
theorem exists_line_of_brace (found : Scan.unmatchedBrace window = some (index, column)) :
    ∃ line, window[index]? = some line ∧ column < line.length := by
  obtain ⟨⟨line, there, brace⟩, -⟩ := Scan.balanced_of_unmatchedBrace found
  have inside := (List.getElem?_eq_some_iff.mp brace).1
  exact ⟨line, there, Nat.lt_of_lt_of_le inside (codeOf_length_le line)⟩

/-- Every step outwards leaves less to read. -/
theorem beforeLabel_shorter (found : Scan.unmatchedBrace window = some (index, column)) :
    (beforeLabel window index column).flatten.length < window.flatten.length := by
  obtain ⟨line, there, inside⟩ := exists_line_of_brace found
  obtain ⟨bound, rfl⟩ := List.getElem?_eq_some_iff.mp there
  have front : (trimRight (window[index].take column)).dropLast.length ≤ column := by
    have shorter := (trimRight_isPrefix (window[index].take column)).length_le
    rw [List.length_dropLast]
    rw [List.length_take] at shorter
    omega
  have whole : window.flatten.length =
      (window.take index).flatten.length + window[index].length + (window.drop (index + 1)).flatten.length := by
    conv_lhs => rw [← List.take_append_drop index window, List.drop_eq_getElem_cons bound]
    simp only [List.flatten_append, List.flatten_cons, List.length_append]
    omega
  simp only [beforeLabel, List.flatten_append, List.flatten_singleton, List.length_append, there,
    List.getD_eq_getElem?_getD, Option.getD_some]
  omega

/-- More steps than there are characters make no difference. -/
theorem decideWithin_eq_of_le {fewer : Nat} (enough : window.flatten.length < fewer) (le : fewer ≤ fuel) :
    decideWithin fuel window = decideWithin fewer window := by
  induction fewer generalizing window fuel with
  | zero => exact absurd enough (Nat.not_lt_zero _)
  | succ fewer ih =>
    obtain ⟨more, rfl⟩ := Nat.exists_eq_add_of_le' le
    rw [Nat.add_succ, decideWithin, decideWithin]
    split
    · rfl
    · next index column found =>
      have shorter := beforeLabel_shorter found
      rw [ih (by omega) (Nat.le_add_left fewer more)]

theorem decideWithin_eq_isOpen (enough : window.flatten.length < fuel) : decideWithin fuel window = isOpen window :=
  decideWithin_eq_of_le (Nat.lt_succ_self _) enough

/-! Labels. -/

/-- A match ends with a colon at the end of the text. -/
def EndsInColon (p : Pattern Unit) : Prop :=
  ∀ cursor, ∀ found ∈ p cursor, [':'] <:+ cursor.after ∨ [':', '\n'] <:+ cursor.after

theorem EndsInColon.after {p q : Pattern Unit} (ends : EndsInColon q) (first : Pattern.Forward p) :
    EndsInColon (p >>= fun _ => q) := by
  intro cursor found member
  obtain ⟨middle, there, onward⟩ := (Pattern.mem_bind p (fun _ => q) cursor found).mp member
  have behind := first cursor middle there
  exact (ends _ found onward).imp (List.IsSuffix.trans · behind) (List.IsSuffix.trans · behind)

theorem endsInColon_colon : EndsInColon (Pattern.literal ":" >>= fun _ => Pattern.atEnd) := by
  intro cursor found member
  obtain ⟨middle, there, onward⟩ := (Pattern.mem_bind _ _ cursor found).mp member
  have reads : cursor.after = ":" ++ middle.2.after := Pattern.reads_literal there
  have last := (Pattern.holds_of_mem_place onward).1
  rw [reads]
  simp only [Bool.or_eq_true, List.isEmpty_iff, decide_eq_true_eq] at last
  rcases last with none | newline
  · exact .inl (by rw [none]; exact List.suffix_refl _)
  · exact .inr (by rw [newline]; exact List.suffix_refl _)

theorem endsInColon_labelPattern {label : Pattern Unit} (forward : Pattern.Forward label) :
    EndsInColon (labelPattern label) := by
  have brace := Pattern.forward_optional ((Pattern.forward_char (· = closeBrace)).bind fun _ => Pattern.forward_blanks)
  exact (((endsInColon_colon.after Pattern.forward_blanks).after forward).after brace).after Pattern.forward_blanks

theorem forward_caseLabel : Pattern.Forward caseLabel :=
  (Pattern.forward_literal "case").bind fun _ => Pattern.forward_someBlanks.bind fun _ =>
    (Pattern.forward_char _).bind fun _ => Pattern.forward_many _

/-- A case label ends with a colon, and perhaps a line break. -/
theorem colon_of_isCaseLabel (label : isCaseLabel text = true) : [':'] <:+ text ∨ [':', '\n'] <:+ text := by
  obtain ⟨found, member⟩ := Pattern.matchesStart_iff.mp label
  exact endsInColon_labelPattern (Pattern.forward_orElse forward_caseLabel (Pattern.forward_literal _)) _ found member

/-- A bare label is a label. -/
theorem isCaseLabel_of_isBareDefault (bare : isBareDefault text = true) : isCaseLabel text = true := by
  obtain ⟨found, member⟩ := Pattern.matchesStart_iff.mp bare
  obtain ⟨first, blanks, member⟩ := (Pattern.mem_bind ..).mp member
  obtain ⟨second, brace, member⟩ := (Pattern.mem_bind ..).mp member
  obtain ⟨third, label, colon⟩ := (Pattern.mem_bind ..).mp member
  refine Pattern.matchesStart_iff.mpr ⟨found, ?_⟩
  exact Pattern.mem_bind_of_mem blanks (Pattern.mem_bind_of_mem brace
    (Pattern.mem_bind_of_mem (List.mem_append_right _ label) colon))

theorem isOpen_of_none (none : Scan.unmatchedBrace window = none) : isOpen window = false := by
  unfold isOpen decideWithin
  rw [none]

/-- A label in front of the brace leaves it to the next brace outwards, if it may be a key; any other text decides
by its last token. -/
theorem isOpen_of_brace (found : Scan.unmatchedBrace window = some (index, column)) :
    isOpen window =
      if isCaseLabel (introduction window index column) then
        isBareDefault (introduction window index column) && isOpen (beforeLabel window index column)
      else endsWithAny (introduction window index column) introducers := by
  have outward : decideWithin window.flatten.length (beforeLabel window index column) =
      isOpen (beforeLabel window index column) := decideWithin_eq_isOpen (beforeLabel_shorter found)
  unfold isOpen decideWithin
  simp only [found, outward]
  split
  · next empty =>
    rw [List.isEmpty_iff.mp empty]
    rfl
  · rfl

end InlineCompletion.ObjectLiteral
