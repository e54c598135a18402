import Mathlib.Data.List.Forall2
import InlineCompletion.Text.Alphanumeric
import InlineCompletion.Text.Letter

/-!
Words in any letter case. What lowers to a lower-case letter of ASCII is that letter in one of its cases, or the
Kelvin sign, which lowers to `k`; a pattern that ignores case takes it for the letter, and it is part of a word.
-/

namespace InlineCompletion.Text

def kelvinSign : Char := Char.ofNat 8490

variable {letter c : Char} {word spelled : Text}

/-- A property of all ASCII characters, code point by code point. -/
theorem forall_of_ascii {p : Char → Prop} (each : ∀ n < 128, p (Char.ofNat n)) (small : c.toNat < 128) : p c := by
  have given := each c.toNat small
  rwa [Char.ofNat_toNat] at given

theorem toNat_ofNat_cases (n : Nat) : (Char.ofNat n).toNat = n ∨ (Char.ofNat n).toNat = 0 := by
  by_cases valid : n.isValidChar
  · exact .inl (congrArg Char.toNat (dif_pos valid))
  · exact .inr (congrArg Char.toNat (dif_neg valid))

/-- A case map leaves a code point as it is, or a run sends it at least as far as its first member. -/
theorem mapRun_cases (n : Nat) (runs : List (Nat × Nat × Nat × Nat)) :
    mapRun n runs = n ∨ ∃ run ∈ runs, run.1 ≤ n ∧ n ≤ run.2.1 ∧ run.2.2.2 ≤ mapRun n runs := by
  induction runs with
  | nil => exact .inl rfl
  | cons run rest ih =>
    obtain ⟨low, high, step, target⟩ := run
    unfold mapRun
    split
    · exact .inl rfl
    · next above =>
      split
      · next inside =>
        rw [Bool.and_eq_true, decide_eq_true_eq] at inside
        exact .inr ⟨_, List.mem_cons_self .., Nat.le_of_not_lt above, inside.1, Nat.le_add_right ..⟩
      · exact ih.imp_right fun ⟨run, member, bounds⟩ => ⟨run, List.mem_cons_of_mem _ member, bounds⟩

/-- The Kelvin sign is the only character beyond ASCII that a run sends into ASCII. -/
theorem mapRun_lowerRuns {n : Nat} (large : 128 ≤ n) (small : mapRun n lowerRuns < 128) : n = kelvinSign.toNat := by
  have runs : ∀ run ∈ lowerRuns, 128 ≤ run.2.2.2 ∨ run.1 = kelvinSign.toNat ∧ run.2.1 = kelvinSign.toNat := by
    decide +kernel
  rcases mapRun_cases n lowerRuns with same | ⟨run, member, lower, upper, bound⟩
  · omega
  · rcases runs run member with far | here
    · omega
    · omega

theorem toNat_lt_of_isLower (low : letter.isLower = true) : 97 ≤ letter.toNat ∧ letter.toNat < 123 := by
  have low : (decide (letter.val ≥ 'a'.val) && decide (letter.val ≤ 'z'.val)) = true := low
  simp only [Bool.and_eq_true, decide_eq_true_eq, ge_iff_le, UInt32.le_iff_toNat_le] at low
  have same : letter.toNat = letter.val.toNat := rfl
  have first : 'a'.val.toNat = 97 := rfl
  have last : 'z'.val.toNat = 122 := rfl
  omega

/-- What lowers to a letter of ASCII is in ASCII itself, or the Kelvin sign. -/
theorem ascii_or_kelvin (low : letter.isLower = true) (form : lowerChar c = [letter]) :
    c.toNat < 128 ∧ c.toLower = letter ∨ c = kelvinSign ∧ letter = 'k' := by
  obtain ⟨first, last⟩ := toNat_lt_of_isLower low
  unfold lowerChar at form
  dsimp only at form
  split at form
  · next small => exact .inl ⟨small, List.singleton_inj.mp form⟩
  · next large =>
    split at form
    · cases form
    · have code := congrArg Char.toNat (List.singleton_inj.mp form)
      rcases toNat_ofNat_cases (mapRun c.toNat lowerRuns) with valid | invalid
      · have small : mapRun c.toNat lowerRuns < 128 := by
          rw [← valid, code]
          exact Nat.lt_trans last (by decide)
        have here := mapRun_lowerRuns (Nat.le_of_not_lt large) small
        have same : c = kelvinSign := by rw [← Char.ofNat_toNat c, here, Char.ofNat_toNat]
        rw [here, show mapRun kelvinSign.toNat lowerRuns = 107 by decide +kernel] at form
        exact .inr ⟨same, (List.singleton_inj.mp form).symm⟩
      · rw [← code, invalid] at first
        cases first

theorem sameLetter_of_form (low : letter.isLower = true) (form : lowerChar c = [letter]) :
    sameLetter letter c = true := by
  rcases ascii_or_kelvin low form with ⟨-, lowered⟩ | ⟨rfl, rfl⟩
  · simp [sameLetter, lowered]
  · rfl

/-- Beyond ASCII no character has another one as its simple lower-case form. -/
theorem toLower_eq_self (large : 128 ≤ c.toNat) : c.toLower = c := by
  unfold Char.toLower
  refine dif_neg fun upper => ?_
  have upper := UInt32.le_iff_toNat_le.mp upper.2
  have same : c.toNat = c.val.toNat := rfl
  have last : 'Z'.val.toNat = 90 := rfl
  omega

/-- What is taken for a letter is part of a word. -/
theorem isWordChar_of_sameLetter (low : letter.isLower = true) (same : sameLetter letter c = true) :
    isWordChar c = true := by
  have code {n : Nat} (given : c.toNat = n) : c = Char.ofNat n := by rw [← given, Char.ofNat_toNat]
  simp only [sameLetter, Bool.or_eq_true, Bool.and_eq_true, decide_eq_true_eq] at same
  rcases same with ((lowered | ⟨-, dotted | dotless⟩) | ⟨-, long⟩) | ⟨-, kelvin⟩
  · by_cases small : c.toNat < 128
    · subst lowered
      exact forall_of_ascii (p := fun c => c.toLower.isLower = true → isWordChar c = true) (by decide +kernel) small low
    · rw [toLower_eq_self (Nat.le_of_not_lt small)] at lowered
      have bound := (toNat_lt_of_isLower low).2
      rw [← lowered] at bound
      omega
  · rw [code dotted]
    decide +kernel
  · rw [code dotless]
    decide +kernel
  · rw [code long]
    decide +kernel
  · rw [code kelvin]
    decide +kernel

theorem isWordChar_of_form (low : letter.isLower = true) (form : lowerChar c = [letter]) : isWordChar c = true :=
  isWordChar_of_sameLetter low (sameLetter_of_form low form)

/-- In ASCII only letters are taken for a letter. -/
theorem isAlpha_of_sameLetter (low : letter.isLower = true) (same : sameLetter letter c = true)
    (small : c.toNat < 128) : c.isAlpha = true := by
  have form : c.toLower = letter := by
    simp only [sameLetter, Bool.or_eq_true, Bool.and_eq_true, decide_eq_true_eq] at same
    rcases same with ((same | ⟨-, code | code⟩) | ⟨-, code⟩) | ⟨-, code⟩
    · exact same
    all_goals omega
  subst form
  exact forall_of_ascii (p := fun c => c.toLower.isLower = true → c.isAlpha = true) (by decide +kernel) small low

/-- What is its own lower-case form, and no letter, is no form of a letter. -/
theorem ne_of_form (low : letter.isLower = true) (form : lowerChar c = [letter]) {d : Char}
    (own : lowerChar d = [d]) (odd : d.isLower = false) : c ≠ d := by
  rintro rfl
  cases List.singleton_inj.mp (own.symm.trans form)
  cases odd.symm.trans low

theorem exists_of_forall₂ {same : Char → Char → Prop} (all : List.Forall₂ same word spelled) (member : c ∈ spelled) :
    ∃ letter ∈ word, same letter c := by
  induction all with
  | nil => cases member
  | cons given _ ih =>
    rcases List.mem_cons.mp member with rfl | member
    · exact ⟨_, List.mem_cons_self .., given⟩
    · obtain ⟨letter, there, given⟩ := ih member
      exact ⟨letter, List.mem_cons_of_mem _ there, given⟩

/-- The characters of a text lower to those of a word one by one. -/
def Spells (word spelled : Text) : Prop :=
  List.Forall₂ (fun letter c => lowerChar c = [letter]) word spelled

/-- Where all that a character lowers to is letters of ASCII, it is a single one. -/
theorem exists_form (low : ∀ letter ∈ lowerChar c, letter.isLower = true) : ∃ letter, lowerChar c = [letter] := by
  unfold lowerChar at low ⊢
  dsimp only at low ⊢
  split
  · exact ⟨_, rfl⟩
  · split
    · next small code =>
      rw [if_neg small, if_pos code] at low
      cases low (Char.ofNat 775) (by simp)
    · exact ⟨_, rfl⟩

theorem spells_of_lower_go {before : Text} (low : ∀ letter ∈ word, letter.isLower = true)
    (cased : lower.go before spelled = word) : Spells word spelled := by
  induction spelled generalizing before word with
  | nil =>
    subst cased
    exact .nil
  | cons c rest ih =>
    subst cased
    unfold lower.go at low ⊢
    have sigma : c.toNat ≠ 931 := by
      intro code
      rw [if_pos code] at low
      have last := low _ (List.mem_append_left _ (List.mem_singleton_self _))
      split at last <;> cases last
    rw [if_neg sigma] at low ⊢
    obtain ⟨letter, form⟩ := exists_form fun letter member => low letter (List.mem_append_left _ member)
    rw [form] at low ⊢
    exact .cons form (ih (fun letter member => low letter (List.mem_cons_of_mem _ member)) rfl)

/-- A text whose lower-case form is a word of ASCII letters spells it letter by letter. -/
theorem spells_of_lower (low : ∀ letter ∈ word, letter.isLower = true) (cased : lower spelled = word) :
    Spells word spelled :=
  spells_of_lower_go low cased

namespace Spells

theorem sameLetters (spells : Spells word spelled) (low : ∀ letter ∈ word, letter.isLower = true) :
    List.Forall₂ (fun letter c => sameLetter letter c = true) word spelled := by
  induction spells with
  | nil => exact .nil
  | cons form _ ih =>
    refine .cons (sameLetter_of_form (low _ (List.mem_cons_self ..)) form) (ih fun letter member => ?_)
    exact low letter (List.mem_cons_of_mem _ member)

theorem isWordChar (spells : Spells word spelled) (low : ∀ letter ∈ word, letter.isLower = true)
    (member : c ∈ spelled) : isWordChar c = true := by
  obtain ⟨letter, there, form⟩ := exists_of_forall₂ spells member
  exact isWordChar_of_form (low letter there) form

theorem not_mem (spells : Spells word spelled) (low : ∀ letter ∈ word, letter.isLower = true)
    (own : lowerChar c = [c]) (odd : c.isLower = false) : c ∉ spelled := by
  intro member
  obtain ⟨letter, there, form⟩ := exists_of_forall₂ spells member
  exact ne_of_form (low letter there) form own odd rfl

end Spells

end InlineCompletion.Text
