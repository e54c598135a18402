import InlineCompletion.Proofs.Text.Readings

/-!
Names and the white space around them. The characters of an identifier are no white space, so that its first
word is the identifier itself; what ends in something else than a class loses nothing when that class is
trimmed.
-/

namespace InlineCompletion

namespace Text

/-- A name as properties have it. -/
def IsIdentifier : Text → Prop
  | [] => False
  | first :: more => isNameStart first = true ∧ ∀ c ∈ more, isNameChar c = true

instance : DecidablePred IsIdentifier
  | [] => .isFalse id
  | first :: more => decidable_of_iff ((isNameStart first && more.all isNameChar) = true) (by simp [IsIdentifier])

/-- What is true of each character of a list, one by one. -/
theorem forall_mem_of_all {p : Char → Prop} [DecidablePred p] {cs : List Char}
    (all : (cs.all fun c => decide (p c)) = true) : ∀ c ∈ cs, p c :=
  fun c member => of_decide_eq_true (List.all_eq_true.mp all c member)

theorem isWordChar_of_isAlphanum {c : Char} (given : c.isAlphanum = true) : isWordChar c = true := by
  have small : c.toNat < 128 := by
    have given :
      (decide (c.val ≥ 'A'.val ∧ c.val ≤ 'Z'.val) || (decide (c.val ≥ 'a'.val) && decide (c.val ≤ 'z'.val)) ||
        (decide (c.val ≥ '0'.val) && decide (c.val ≤ '9'.val))) = true := given
    simp only [Bool.or_eq_true, Bool.and_eq_true, decide_eq_true_eq, UInt32.le_iff_toNat_le] at given
    have same : c.toNat = c.val.toNat := rfl
    rcases given with (⟨-, upper⟩ | ⟨-, lower⟩) | ⟨-, digit⟩
    · exact Nat.lt_of_le_of_lt (same ▸ upper) (by decide)
    · exact Nat.lt_of_le_of_lt (same ▸ lower) (by decide)
    · exact Nat.lt_of_le_of_lt (same ▸ digit) (by decide)
  unfold isWordChar isAlphanumeric
  rw [if_pos small, given]
  rfl

theorem isNameChar_of_isWordChar {c : Char} (part : isWordChar c = true) : isNameChar c = true := by
  rw [isNameChar, part, Bool.true_or]

theorem isNameChar_of_isAlphanum {c : Char} (given : c.isAlphanum = true) : isNameChar c = true :=
  isNameChar_of_isWordChar (isWordChar_of_isAlphanum given)

theorem isNameChar_of_isNameStart {c : Char} (given : isNameStart c = true) : isNameChar c = true := by
  simp only [isNameStart, Bool.or_eq_true, decide_eq_true_eq] at given
  rcases given with (letter | rfl) | rfl
  · refine isNameChar_of_isAlphanum ?_
    show (c.isAlpha || c.isDigit) = true
    rw [letter, Bool.true_or]
  · rfl
  · rfl

/-- The code points of white space. -/
def blankCodes : List Nat :=
  [9, 10, 11, 12, 13, 28, 29, 30, 31, 32, 133, 160, 5760, 8192, 8193, 8194, 8195, 8196, 8197, 8198,
    8199, 8200, 8201, 8202, 8232, 8233, 8239, 8287, 12288]

theorem mem_blankCodes {c : Char} (blank : isBlank c = true) : c.toNat ∈ blankCodes := by
  unfold isBlank at blank
  dsimp only at blank
  simp only [blankCodes, List.mem_cons, List.not_mem_nil, or_false]
  split at blank
  · simp only [Bool.or_eq_true, Bool.and_eq_true, decide_eq_true_eq] at blank
    omega
  · simp only [Bool.or_eq_true, Bool.and_eq_true, decide_eq_true_eq] at blank
    omega

/-- No character of a name is white space. -/
theorem not_isBlank_of_isNameChar {c : Char} (given : isNameChar c = true) : isBlank c = false := by
  have none : ∀ n ∈ blankCodes, isNameChar (Char.ofNat n) = false := by decide +kernel
  refine Bool.eq_false_iff.mpr fun blank => ?_
  have other := none c.toNat (mem_blankCodes blank)
  rw [Char.ofNat_toNat, given] at other
  cases other

variable {name : Text}

theorem IsIdentifier.all (named : name.IsIdentifier) : ∀ c ∈ name, isNameChar c = true := by
  cases name with
  | nil => exact named.elim
  | cons first more =>
    intro c member
    rcases List.mem_cons.mp member with rfl | member
    · exact isNameChar_of_isNameStart named.1
    · exact named.2 c member

theorem allBlank_eq_false {text : Text} {c : Char} (member : c ∈ text) (solid : isBlank c = false) :
    allBlank text = false := by
  refine Bool.eq_false_iff.mpr fun blank => ?_
  cases solid.symm.trans (List.all_eq_true.mp blank c member)

theorem trimLeft_eq {text : Text} (solid : ∀ c ∈ text.head?, isBlank c = false) :
    trimLeft text = text := by
  cases text with
  | nil => rfl
  | cons c rest => exact List.dropWhile_cons_of_neg (by simp [solid c rfl])

theorem dropTrailing_eq {p : Char → Bool} {text : Text} (solid : ∀ c ∈ text.getLast?, p c = false) :
    dropTrailing p text = text := by
  unfold dropTrailing
  cases back : text.reverse with
  | nil => rw [List.reverse_eq_nil_iff.mp back]; rfl
  | cons c rest =>
    have last : p c = false := solid c (by rw [← List.head?_reverse, back]; rfl)
    rw [List.dropWhile_cons_of_neg (by simp [last]), ← back, List.reverse_reverse]

/-- Nothing but the class is taken off an end. -/
theorem dropTrailing_append (p : Char → Bool) (text : Text) :
    ∃ dropped, text = dropTrailing p text ++ dropped ∧ ∀ c ∈ dropped, p c = true := by
  refine ⟨(text.reverse.takeWhile p).reverse, ?_, fun c member =>
    List.all_eq_true.mp List.all_takeWhile c (List.mem_reverse.mp member)⟩
  unfold dropTrailing
  rw [← List.reverse_append, List.takeWhile_append_dropWhile, List.reverse_reverse]

theorem endsWith_singleton {text : Text} {c : Char} : endsWith text [c] = true ↔ text.getLast? = some c := by
  unfold endsWith
  rw [List.isSuffixOf_iff_suffix, List.getLast?_eq_some_iff]
  exact exists_congr fun front => eq_comm

theorem getLast?_dropTrailing (p : Char → Bool) (text : Text) :
    ∀ c ∈ (dropTrailing p text).getLast?, p c = false := by
  intro c member
  unfold dropTrailing at member
  rw [List.getLast?_reverse] at member
  have given := List.head?_dropWhile_not p text.reverse
  rw [Option.mem_def.mp member] at given
  simpa using given

theorem dropTrailing_subset (p : Char → Bool) (text : Text) : dropTrailing p text ⊆ text := by
  obtain ⟨dropped, split, -⟩ := dropTrailing_append p text
  intro c member
  rw [split]
  exact List.mem_append_left _ member

theorem trim_subset (text : Text) : trim text ⊆ text := fun _ member =>
  (List.dropWhile_suffix _).subset (dropTrailing_subset _ _ member)

/-- What is taken off the end of a text is there no more, and the rest is. -/
theorem dropTrailing_append_right {p : Char → Bool} {text dropped : Text}
    (solid : ∀ c ∈ text.getLast?, p c = false) (all : ∀ c ∈ dropped, p c = true) :
    dropTrailing p (text ++ dropped) = text := by
  have same := dropTrailing_eq solid
  unfold dropTrailing at same ⊢
  rw [List.reverse_append, List.dropWhile_append_of_pos fun c member => all c (List.mem_reverse.mp member), same]

theorem count_dropTrailing {p : Char → Bool} {c : Char} (kept : p c = false) (text : Text) :
    (dropTrailing p text).count c = text.count c := by
  obtain ⟨dropped, split, all⟩ := dropTrailing_append p text
  have none : dropped.count c = 0 := List.count_eq_zero.mpr fun member => by
    cases kept.symm.trans (all c member)
  have whole := congrArg (List.count c) split
  rw [List.count_append, none, Nat.add_zero] at whole
  exact whole.symm

/-- The first word of a text that begins with one. -/
theorem headD_words {word rest : Text} (some : word ≠ []) (solid : ∀ c ∈ word, isBlank c = false)
    (apart : ∀ c ∈ rest.head?, isBlank c = true) : (words (word ++ rest)).headD [] = word := by
  have nobody : (rest.foldr words.step ([], [])).1 = [] := by
    cases rest with
    | nil => rfl
    | cons c more =>
      rw [List.foldr_cons, words.step, if_pos (apart c rfl)]
  have read : (word ++ rest).foldr words.step ([], []) = (word, (rest.foldr words.step ([], [])).2) := by
    clear some
    induction word with
    | nil => exact Prod.ext nobody rfl
    | cons c more ih =>
      rw [List.cons_append, List.foldr_cons, ih fun c member => solid c (List.mem_cons_of_mem _ member),
        words.step, if_neg (by simp [solid c (List.mem_cons_self ..)])]
  unfold words
  rw [read]
  cases word with
  | nil => exact absurd rfl some
  | cons c more => rfl

end Text

namespace Property

open Pattern Text

variable {name : Text}

theorem head?_of_isIdentifier (named : name.IsIdentifier) (rest : Text) :
    ∀ c ∈ (name ++ rest).head?, isNameStart c = true := by
  cases name with
  | nil => exact named.elim
  | cons first more =>
    intro c member
    cases member
    exact named.1

theorem prefers_name (named : name.IsIdentifier) {rest : Text}
    (stops : ∀ c ∈ rest.head?, isNameChar c = false) (before : Text) :
    Prefers Pattern.name ⟨before, name ++ rest⟩ () ⟨name.reverse ++ before, rest⟩ := by
  cases name with
  | nil => exact named.elim
  | cons first more =>
    have later := prefers_many named.2 stops (first :: before)
    rw [List.reverse_cons, List.append_assoc]
    exact (prefers_char named.1 before (more ++ rest)).bind later

end Property

namespace Pattern

variable {cursor : Cursor} {found : Unit × Cursor}

theorem reads_name (member : found ∈ name cursor) :
    ∃ read : Text, read.IsIdentifier ∧ cursor.Reads read found.2 := by
  obtain ⟨first, member, rest⟩ := (mem_bind _ _ cursor found).mp member
  obtain ⟨c, starts, reads⟩ := reads_char member
  obtain ⟨run, all, onward⟩ := reads_many rest
  exact ⟨c :: run, ⟨starts, all⟩, reads.trans onward⟩

end Pattern

end InlineCompletion
