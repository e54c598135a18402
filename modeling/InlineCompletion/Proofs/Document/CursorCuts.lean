import InlineCompletion.Cache.Key
import InlineCompletion.Proofs.Document.Excerpts

/-!
Where the cursor line is cut. The document takes a column left of the line for its start, while an excerpt and the
fingerprint of a key count such a column from the end of the line; so they agree for all columns from the start of the
line on, and for one to its left only by chance.
-/

namespace InlineCompletion

open Text

namespace Document

variable {document : Document} {position : Position}

theorem before_of_neg (left : position.character < 0) : document.before position = [] := by
  have none : position.character.toNat = 0 := by omega
  rw [before, none, List.take_zero]

theorem after_of_neg (left : position.character < 0) : document.after position = document.lineAt position.line := by
  have none : position.character.toNat = 0 := by omega
  rw [after, none, List.drop_zero]

/-- A marker moved over some text leaves the same text only if that was made of markers. -/
theorem marked_eq_iff (front rest : Text) :
    front ++ cursorMarker ++ rest = cursorMarker ++ (front ++ rest) ↔
      ∃ times, front = (List.replicate times cursorMarker).flatten := by
  rw [← List.append_assoc, List.append_left_inj]
  exact append_comm_iff_of_once cursorMarker_once front

/-- The marker is put where the document cuts the line, or it makes no difference that it is not. -/
theorem markedLine_eq_iff :
    document.markedLine position = document.before position ++ cursorMarker ++ document.after position ↔
      0 ≤ position.character ∨ ∃ times,
        sliceTo (document.lineAt position.line) position.character = (List.replicate times cursorMarker).flatten := by
  rcases Int.lt_or_le position.character 0 with left | right
  · have moved := marked_eq_iff (sliceTo (document.lineAt position.line) position.character)
      (sliceFrom (document.lineAt position.line) position.character)
    rw [sliceTo_append_sliceFrom] at moved
    rw [markedLine, before_of_neg left, after_of_neg left, List.nil_append, moved, or_iff_right (by omega)]
  · rw [markedLine_of_nonneg right, List.append_assoc]
    exact iff_of_true rfl (.inl right)

end Document

namespace CacheKey

variable {document : Document} {position : Position}

/-- The fingerprint takes in the character behind the cursor, or one that is the same. -/
theorem following_eq_iff :
    following document position = (document.after position).take 1 ↔
      0 ≤ position.character ∨ document.lineAt position.line = [] ∨
        position.character < -1 ∧ 0 ≤ position.character + (document.lineAt position.line).length ∧
          (document.lineAt position.line)[(position.character + (document.lineAt position.line).length).toNat]? =
            (document.lineAt position.line).head? := by
  rcases Int.lt_or_le position.character 0 with left | right
  · rw [following, slice_succ_of_neg left, Document.after_of_neg left, or_iff_right (by omega)]
    generalize document.lineAt position.line = line
    rw [List.take_one]
    split
    · next inside =>
      have same : ∀ a b : Option Char, a.toList = b.toList ↔ a = b := by
        rintro (_ | a) (_ | b) <;> simp
      rw [same]
      constructor
      · exact fun equal => .inr ⟨inside.1, inside.2, equal⟩
      · rintro (rfl | ⟨-, -, equal⟩)
        · rfl
        · exact equal
    · next outside =>
      rw [eq_comm, Option.toList_eq_nil_iff, List.head?_eq_none_iff]
      exact ⟨.inl, fun either => either.resolve_right fun held => outside ⟨held.1, held.2.1⟩⟩
  · exact iff_of_true (slice_succ_of_nonneg right) (.inl right)

end CacheKey

/-- The document cuts the cursor line in two at any column. An excerpt has the marker between these two parts, and a
fingerprint takes in the first character of the second one, for every column from the start of the line on; for a column
left of it they do so exactly if what stands there happens to be the same. -/
theorem cuts_agree_iff (text fileName : Text) (language : Option Text) (position : Position) (above below : Int) :
    let document := Document.ofText text fileName language
    let current := document.lineAt position.line
    document.before position ++ document.after position = current ∧
    ((Text.lines (document.excerpt position above below))[(position.line - max 0 (position.line - above)).toNat]? =
        some (document.before position ++ cursorMarker ++ document.after position) ↔
      0 ≤ position.character ∨
        ∃ times, sliceTo current position.character = (List.replicate times cursorMarker).flatten) ∧
    (CacheKey.following document position = (document.after position).take 1 ↔
      0 ≤ position.character ∨ current = [] ∨ position.character < -1 ∧ 0 ≤ position.character + current.length ∧
        current[(position.character + current.length).toNat]? = current.head?) := by
  intro document current
  have lined : document.IsLined := Document.isLined_ofText text fileName language
  refine ⟨document.before_append_after position, ?_, CacheKey.following_eq_iff⟩
  have row : (Text.lines (document.excerpt position above below))[(position.line - max 0 (position.line - above)).toNat]? =
      some (document.markedLine position) := by
    rw [lined.lines_excerpt, ← @Document.length_linesBetween document, List.append_assoc,
      List.getElem?_append_right (Nat.le_refl _), Nat.sub_self]
    rfl
  rw [row, Option.some_inj, Document.markedLine_eq_iff]

/-- At the last column counted from the end, the excerpt has the marker in front of the last character, and the fingerprint
takes in none, while the document has the cursor at the start of the line. -/
theorem cuts_apart_left_of_line :
    let document := Document.ofText "abc" "app.ts" none
    document.before ⟨0, -1⟩ = [] ∧ document.after ⟨0, -1⟩ = "abc" ∧
      document.excerpt ⟨0, -1⟩ 20 5 = "ab<CURSOR>c" ∧ CacheKey.following document ⟨0, -1⟩ = [] ∧
      (Text.lines (document.excerpt ⟨0, -1⟩ 20 5))[0]? ≠
        some (document.before ⟨0, -1⟩ ++ cursorMarker ++ document.after ⟨0, -1⟩) ∧
      CacheKey.following document ⟨0, -1⟩ ≠ (document.after ⟨0, -1⟩).take 1 := by
  intro document
  obtain ⟨-, marker, next⟩ := cuts_agree_iff "abc" "app.ts" none ⟨0, -1⟩ 20 5
  refine ⟨rfl, rfl, by decide +kernel, by decide +kernel, ?_, ?_⟩
  · intro same
    rcases marker.mp same with right | ⟨times, markers⟩
    · exact absurd right (by decide)
    · have made : 'a' ∈ (List.replicate times cursorMarker).flatten := markers ▸ List.mem_cons_self ..
      obtain ⟨piece, member, inside⟩ := List.mem_flatten.mp made
      rw [List.eq_of_mem_replicate member] at inside
      exact absurd inside (by decide)
  · intro same
    rcases next.mp same with right | empty | ⟨left, -⟩
    · exact absurd right (by decide)
    · exact List.cons_ne_nil _ _ empty
    · exact absurd left (by decide)

end InlineCompletion
