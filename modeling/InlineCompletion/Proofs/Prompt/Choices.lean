import InlineCompletion.Prompt.Choice
import InlineCompletion.Proofs.Scan.Depth
import InlineCompletion.Proofs.Scan.Effects
import InlineCompletion.Proofs.Text.Words
import Mathlib.Data.List.Induction
import Mathlib.Data.List.Infix

/-!
What a prompt asks for, told from the text around the cursor.
-/

namespace InlineCompletion.Place

open Text Scan

/-!
Whether the cursor of a stylesheet stands in a block. The prompt adds up the braces of the window, while a block is
open exactly if a matching leaves a brace open; so the prompt is right unless the window closes at least as many blocks
from above it as it leaves open itself.
-/

/-- The braces of the window, literals blanked, matched from left to right. -/
def braces (place : Place) : Matching Nat :=
  .ofCode openBrace closeBrace (place.window.map blankLiterals).flatten.zipIdx

theorem foldl_braceBalance (lines : List Text) (balance : Int) :
    lines.foldl (fun balance line => balance + braceBalance line) balance =
      balance + depth (lines.map blankLiterals).flatten := by
  induction lines generalizing balance with
  | nil => simp [depth]
  | cons line below ih =>
    have here : braceBalance line = depth (blankLiterals line) := rfl
    rw [List.foldl_cons, ih, List.map_cons, List.flatten_cons, depth_append, here]
    omega

/-- The sum is the number of open braces less that of the closing ones for which none was open. -/
theorem insideBlock_iff (place : Place) :
    place.insideBlock = true ↔ place.braces.strays.length < place.braces.opened.length := by
  have level : (place.braces.opened.length : Int) - place.braces.strays.length =
      depth (place.window.map blankLiterals).flatten := by
    rw [braces, Matching.length_opened (by decide), Matching.balance, List.zipIdx_map_fst, depth]
  rw [insideBlock, decide_eq_true_iff, foldl_braceBalance, ← level]
  omega

theorem stylesheet_ne_cssSelector_iff (place : Place) :
    place.stylesheet ≠ .cssSelector ↔ place.insideBlock = true := by
  unfold stylesheet
  split
  · next inside =>
    refine iff_of_true ?_ inside
    split <;> exact nofun
  · next outside => exact iff_of_false (not_not.mpr rfl) outside

/-- A rule that begins above the window and ends in it, and the cursor in the next one. -/
def longSheet : Place :=
  let document := Document.ofText
    (".a \x7b\n" ++ (List.replicate 49 ("  b: c;\n" : Text)).flatten ++ "\x7d\n.d \x7b\n  ") "site.css" none
  ⟨classify document ⟨52, 2⟩ defaultScanWindow, document, ⟨52, 2⟩, []⟩

end InlineCompletion.Place

/-!
Which statement the prompt of a query file names. It is the one of the highest precedence whose keyword the typed text
contains in upper case, be it as a word or inside a longer one. What is named stands there as a word exactly if each
keyword that occurs inside longer words only is overridden by one that is a word.
-/

namespace InlineCompletion

namespace Text

/-- The keyword is a word of the text, in any letter case. -/
def HasWord (text keyword : Text) : Prop :=
  ∃ word, upper word = keyword ∧ StandsIn isWordChar word text

variable {text keyword : Text}

theorem upper_append (front rest : Text) : upper (front ++ rest) = upper front ++ upper rest :=
  List.flatMap_append

theorem contains_iff_isInfix : contains text keyword = true ↔ keyword <:+: text := by
  rw [contains, Option.isSome_iff_ne_none, ne_eq, indexOf?_eq_none_iff, not_not]

theorem HasWord.isInfix (word : text.HasWord keyword) : keyword <:+: upper text := by
  obtain ⟨word, rfl, front, rest, rfl, -, -⟩ := word
  rw [upper_append, upper_append, ← List.append_assoc]
  exact List.infix_append ..

theorem any_eq_false_iff {p : Char → Bool} {found : Option Char} :
    found.any p = false ↔ ∀ c ∈ found, p c = false := by
  cases found <;> simp

/-- A text has a word exactly if one of its splits shows it. -/
theorem hasWord_iff : text.HasWord keyword ↔ ∃ start ≤ text.length, ∃ size ≤ text.length,
    upper ((text.drop start).take size) = keyword ∧ (text.take start).getLast?.any isWordChar = false ∧
      ((text.drop start).drop size).head?.any isWordChar = false := by
  constructor
  · rintro ⟨word, same, front, rest, rfl, left, right⟩
    refine ⟨front.length, by simp, word.length, by simp; omega, ?_⟩
    rw [List.drop_left, List.take_left, List.take_left, List.drop_left]
    exact ⟨same, any_eq_false_iff.mpr left, any_eq_false_iff.mpr right⟩
  · rintro ⟨start, -, size, -, same, left, right⟩
    exact ⟨_, same, _, _, by simp only [List.take_append_drop], any_eq_false_iff.mp left, any_eq_false_iff.mp right⟩

instance (text keyword : Text) : Decidable (text.HasWord keyword) :=
  decidable_of_iff _ hasWord_iff.symm

end Text

/-- The last element that satisfies a condition, or the first choice where there is none. -/
theorem foldl_last_cases {α : Type} (p : α → Bool) (first : α) (xs : List α) :
    xs.foldl (fun chosen x => if p x then x else chosen) first = first ∧ (∀ x ∈ xs, p x = false) ∨
      ∃ front x later, xs = front ++ x :: later ∧ p x = true ∧ (∀ y ∈ later, p y = false) ∧
        xs.foldl (fun chosen x => if p x then x else chosen) first = x := by
  induction xs using List.reverseRecOn with
  | nil => exact .inl ⟨rfl, nofun⟩
  | append_singleton xs last ih =>
    rw [List.foldl_append, List.foldl_cons, List.foldl_nil]
    by_cases holds : p last = true
    · exact .inr ⟨xs, last, [], rfl, holds, nofun, if_pos holds⟩
    · have fails : p last = false := Bool.eq_false_iff.mpr holds
      rw [if_neg holds]
      rcases ih with ⟨same, none⟩ | ⟨front, x, later, rfl, given, none, same⟩
      · refine .inl ⟨same, fun x member => ?_⟩
        rcases List.mem_append.mp member with early | here
        · exact none x early
        · exact List.mem_singleton.mp here ▸ fails
      · refine .inr ⟨front, x, later ++ [last], by simp, given, fun y member => ?_, same⟩
        rcases List.mem_append.mp member with early | here
        · exact none y early
        · exact List.mem_singleton.mp here ▸ fails

namespace Place

open Text

/-- A query for a column whose name contains a keyword. -/
def columnQuery : Place :=
  let document := Document.ofText "SELECT updated_at" "q.sql" none
  ⟨classify document ⟨0, 17⟩ defaultScanWindow, document, ⟨0, 17⟩, []⟩

end Place

end InlineCompletion
