import InlineCompletion.Proofs.Scan.Literals
import InlineCompletion.Proofs.Text.Words
import InlineCompletion.Scan.Bracket

/-!
What the marks of a text say about one character: it belongs to a literal exactly if a literal is open in front of
it or behind it. From this follows which characters a line shows once its comment is dropped and its literals are
blanked.
-/

namespace InlineCompletion.Scan

open Text Standing

/-- The character at the index belongs to a literal: one is open in front of it, or behind it. -/
def InLiteral (text : Text) (index : Nat) : Prop :=
  openQuote (text.take index) ≠ none ∨ openQuote (text.take (index + 1)) ≠ none

instance (text : Text) (index : Nat) : Decidable (InLiteral text index) :=
  inferInstanceAs (Decidable (_ ∨ _))

/-- The token begins at the index, with a character outside of literals. -/
def BareAt (token text : Text) (index : Nat) : Prop :=
  token <+: text.drop index ∧ ¬ InLiteral text index

/-- A line comment begins here. -/
def CommentAt (line : Text) (start : Nat) : Prop :=
  startsWith (line.drop start) "//" = true ∧ ¬ InLiteral line start

/-- The character at the index is part of a line comment. -/
def InComment (line : Text) (index : Nat) : Prop :=
  ∃ start ≤ index, CommentAt line start

instance (line : Text) (start : Nat) : Decidable (CommentAt line start) :=
  inferInstanceAs (Decidable (_ ∧ _))

variable {text line token : Text} {index k : Nat} {c : Char}

/-! Marks. -/

theorem getElem?_literalMask_go (standing : Standing) (text : Text) (index : Nat) :
    (literalMask.go standing.quote standing.escaped text)[index]? =
      text[index]?.map (standing.through (text.take index)).marks := by
  induction text generalizing standing index with
  | nil => cases standing.quote <;> rfl
  | cons c rest ih =>
    rw [literalMask_go_cons]
    cases index with
    | zero => rfl
    | succ index => exact ih (standing.read c) index

theorem marks_eq_decide (here : text[index]? = some c) :
    (outside.through (text.take index)).marks c = decide (InLiteral text index) := by
  have next : text.take (index + 1) = text.take index ++ [c] := by rw [List.take_add_one, here]; rfl
  rw [Bool.eq_iff_iff, decide_eq_true_iff, InLiteral, next, openQuote_eq, openQuote_eq, through_append]
  simp [marks, Option.ne_none_iff_isSome]

/-- The marks of the characters, each by itself. -/
theorem getElem?_literalMask (text : Text) (index : Nat) :
    (literalMask text)[index]? = text[index]?.map fun _ => decide (InLiteral text index) := by
  have mask := getElem?_literalMask_go outside text index
  cases here : text[index]? with
  | none => exact mask.trans (by rw [here]; rfl)
  | some c => exact mask.trans (by rw [here, Option.map_some, marks_eq_decide here]; rfl)

theorem getElem?_literalMask_of_lt (inside : index < text.length) :
    (literalMask text)[index]? = some (decide (InLiteral text index)) := by
  rw [getElem?_literalMask, List.getElem?_eq_getElem inside]
  rfl

/-- What is behind a character does not matter for it. -/
theorem inLiteral_take (before : index < k) : InLiteral (text.take k) index ↔ InLiteral text index := by
  rw [InLiteral, InLiteral, List.take_take, List.take_take, Nat.min_eq_left before.le, Nat.min_eq_left before]

theorem literalMask_take (text : Text) (k : Nat) : literalMask (text.take k) = (literalMask text).take k := by
  refine List.ext_getElem? fun index => ?_
  rw [getElem?_literalMask, List.getElem?_take, List.getElem?_take, getElem?_literalMask]
  split
  · next before => simp only [inLiteral_take before]
  · rfl

theorem getElem?_blankLiterals (text : Text) (index : Nat) :
    (blankLiterals text)[index]? = text[index]?.map fun c => if InLiteral text index then ' ' else c := by
  rw [blankLiterals, List.getElem?_zipWith, getElem?_literalMask]
  cases text[index]? with
  | none => rfl
  | some c => simp

/-- What is seen of a text and is no blank stands there, outside of literals. -/
theorem of_getElem?_blankLiterals (seen : (blankLiterals text)[index]? = some c) (solid : c ≠ ' ') :
    text[index]? = some c ∧ ¬ InLiteral text index := by
  rw [getElem?_blankLiterals] at seen
  obtain ⟨d, here, shown⟩ := Option.map_eq_some_iff.mp seen
  split at shown
  · exact absurd shown.symm solid
  · next apart => exact ⟨shown ▸ here, apart⟩

/-! Searches outside of literals. -/

/-- The first place where the token begins with a character that is not marked, if there is one. -/
theorem findFrom_cases (solid : token ≠ []) (text : Text) (mask : List Bool) (index : Nat) :
    (∃ k, findFrom token text mask index = .at (index + k) ∧
        (startsWith (text.drop k) token && !(mask.drop k).headD false) = true ∧
        ∀ j < k, (startsWith (text.drop j) token && !(mask.drop j).headD false) = false) ∨
      findFrom token text mask index = .absent ∧
        ∀ j, (startsWith (text.drop j) token && !(mask.drop j).headD false) = false := by
  induction text generalizing mask index with
  | nil =>
    refine .inr ⟨by simp [findFrom, solid], fun j => ?_⟩
    simp [startsWith, solid]
  | cons c rest ih =>
    have shift (j : Nat) : mask.tail.drop j = mask.drop (j + 1) := by rw [List.drop_tail]
    by_cases here : (startsWith (c :: rest) token && !mask.headD false) = true
    · exact .inl ⟨0, by rw [findFrom, if_pos here]; rfl, here, fun j less => absurd less (Nat.not_lt_zero j)⟩
    · have apart := Bool.eq_false_iff.mpr here
      rw [findFrom, if_neg here]
      rcases ih mask.tail (index + 1) with ⟨k, found, hit, first⟩ | ⟨absent, none⟩
      · refine .inl ⟨k + 1, by rw [found]; congr 1; omega, by rwa [shift] at hit, fun j less => ?_⟩
        cases j with
        | zero => exact apart
        | succ j => rw [← shift]; exact first j (Nat.lt_of_succ_lt_succ less)
      · refine .inr ⟨absent, fun j => ?_⟩
        cases j with
        | zero => exact apart
        | succ j => rw [← shift]; exact none j

theorem hit_iff (solid : token ≠ []) :
    (startsWith (text.drop k) token && !((literalMask text).drop k).headD false) = true ↔ BareAt token text k := by
  rw [Bool.and_eq_true, startsWith, List.isPrefixOf_iff_prefix, BareAt, and_congr_right_iff]
  intro begins
  have inside := lt_length_of_prefix_drop solid begins
  rw [List.headD_eq_head?_getD, List.head?_drop, getElem?_literalMask_of_lt inside]
  simp

/-- A search that begins at an index finds the first place from there on where the token begins outside of literals. -/
theorem findOutside_cases (solid : token ≠ []) (text : Text) (start : Nat) :
    (∃ index, findOutside text token start = .at index ∧
        IsLeast {place | start ≤ place ∧ BareAt token text place} index) ∨
      findOutside text token start = .absent ∧ ∀ place ≥ start, ¬ BareAt token text place := by
  have bare (k : Nat) : (startsWith ((text.drop start).drop k) token &&
      !(((literalMask text).drop start).drop k).headD false) = true ↔ BareAt token text (start + k) := by
    rw [List.drop_drop, List.drop_drop]
    exact hit_iff solid
  have missed {place : Nat} (behind : start ≤ place) (given : (startsWith ((text.drop start).drop (place - start)) token &&
      !(((literalMask text).drop start).drop (place - start)).headD false) = false) : ¬ BareAt token text place := by
    rw [← Nat.add_sub_of_le behind, ← bare, given]
    exact Bool.false_ne_true
  have search : findOutside text token start =
      findFrom token (text.drop start) ((literalMask text).drop start) start := by
    have first : (if (start : Int) < 0 then ((start : Int) + text.length).toNat else (start : Int).toNat) = start := by
      rw [if_neg (by omega), Int.toNat_natCast]
    simp only [findOutside, first]
    split
    · next beyond => simp [List.drop_of_length_le beyond.le, findFrom, solid]
    · rfl
  rw [search]
  rcases findFrom_cases solid (text.drop start) ((literalMask text).drop start) start with
    ⟨k, found, hit, first⟩ | ⟨absent, none⟩
  · refine .inl ⟨start + k, found, ⟨Nat.le_add_right .., (bare k).mp hit⟩, fun place ⟨behind, there⟩ => ?_⟩
    by_contra before
    exact missed behind (first (place - start) (by omega)) there
  · exact .inr ⟨absent, fun place behind => missed behind (none (place - start))⟩

/-- What is left of a line is what stands in front of its first comment. -/
theorem dropComment_cases (line : Text) :
    (∃ start, dropComment line = line.take start ∧ CommentAt line start ∧ ∀ j < start, ¬ CommentAt line j) ∨
      dropComment line = line ∧ ∀ j, ¬ CommentAt line j := by
  have solid : ("//" : Text) ≠ [] := by simp
  have search : findOutside line "//" (0 : Nat) = findOutside line "//" 0 := rfl
  have bare (place : Nat) : BareAt "//" line place ↔ CommentAt line place :=
    and_congr_left' List.isPrefixOf_iff_prefix.symm
  simp only [dropComment, ← search, ← bare]
  rcases findOutside_cases solid line 0 with ⟨start, found, ⟨-, there⟩, least⟩ | ⟨absent, none⟩
  · refine .inl ⟨start, by rw [found], there, fun j less given => ?_⟩
    exact absurd (least ⟨Nat.zero_le j, given⟩) (Nat.not_le_of_lt less)
  · exact .inr ⟨by rw [absent], fun j => none j (Nat.zero_le j)⟩

/-- The characters that are left of a line: those in front of its comment, with blanks for literals. -/
theorem getElem?_codeOf_eq_some_iff :
    (codeOf text)[index]? = some c ↔
      ¬ InComment text index ∧ ∃ d, text[index]? = some d ∧ (if InLiteral text index then ' ' else d) = c := by
  rw [codeOf, getElem?_blankLiterals]
  rcases dropComment_cases text with ⟨start, cut, comment, first⟩ | ⟨whole, none⟩
  · rw [cut]
    by_cases before : index < start
    · have free : ¬ InComment text index := fun ⟨j, le, there⟩ => first j (by omega) there
      simp [List.getElem?_take_of_lt before, inLiteral_take before, free]
    · have within : InComment text index := ⟨start, by omega, comment⟩
      have none : (text.take start)[index]? = none := by rw [List.getElem?_take, if_neg before]
      simp [none, within]
  · have free : ¬ InComment text index := fun ⟨j, _, there⟩ => none j there
    rw [whole]
    simp [free]

/-- What is seen of a line and is no blank stands there, outside of literals and comments. -/
theorem of_getElem?_codeOf (seen : (codeOf text)[index]? = some c) (solid : c ≠ ' ') :
    text[index]? = some c ∧ ¬ InLiteral text index ∧ ¬ InComment text index := by
  obtain ⟨free, d, here, shown⟩ := getElem?_codeOf_eq_some_iff.mp seen
  split at shown
  · exact absurd shown.symm solid
  · next apart => exact ⟨shown ▸ here, apart, free⟩

/-!
Words that are seen of a line once its literals are blanked. They are written in the line itself, outside of literals.
-/

/-- The word is written in the line from the column on, all of it outside of literals, and no character of the class is
seen next to it. -/
structure Seen (part : Char → Bool) (line : Text) (column : Nat) (word : Text) : Prop where
  written : word <+: line.drop column
  outside : ∀ index < word.length, ¬ InLiteral line (column + index)
  left : ∀ c ∈ ((blankLiterals line).take column).getLast?, part c = false
  right : ∀ c ∈ ((blankLiterals line).drop (column + word.length)).head?, part c = false

variable {part : Char → Bool} {word : Text}

theorem exists_seen (stands : StandsIn part word (blankLiterals text)) (solid : ∀ c ∈ word, c ≠ ' ') :
    ∃ column, Seen part text column word := by
  obtain ⟨front, rest, code, left, right⟩ := stands
  have shown (index : Nat) (inside : index < word.length) :
      text[front.length + index]? = some word[index] ∧ ¬ InLiteral text (front.length + index) := by
    refine of_getElem?_blankLiterals ?_ (solid _ (List.getElem_mem inside))
    rw [code, List.getElem?_append_right (Nat.le_add_right ..), Nat.add_sub_cancel_left,
      List.getElem?_append_left inside, List.getElem?_eq_getElem inside]
  refine ⟨front.length, List.prefix_iff_getElem?.mpr fun index inside => ?_, fun index inside => (shown index inside).2,
    ?_, ?_⟩
  · rw [List.getElem?_drop]
    exact (shown index inside).1
  · rwa [code, List.take_left]
  · rwa [code, ← List.drop_drop, List.drop_left, List.drop_left]

end InlineCompletion.Scan
