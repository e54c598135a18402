import InlineCompletion.Log.Size
import InlineCompletion.Proofs.Text.Casing
import InlineCompletion.Proofs.Text.Trims

/-!
What is read as a size: digits of any script, perhaps white space, and perhaps a unit in either case. The form of a
unit is looked for up to case in all of Unicode, and then the unit itself in a table of ASCII letters. The two agree
but for the Kelvin sign, which is taken for a `k` and is its own capital, so that units with it are in no table.
-/

namespace InlineCompletion.Log.Size

open Text

/-- A text that is digits, perhaps white space, and a unit, once it is trimmed. -/
structure Composed (text digits unit : Text) : Prop where
  whole : ∃ gap, trim text = digits ++ (gap ++ unit) ∧ ∀ c ∈ gap, isBlank c = true
  nonempty : digits ≠ []
  allDigits : ∀ c ∈ digits, isDigit c = true

/-- The unit stands for a factor when it is written in ASCII letters of any case. -/
def factor? (unit : Text) : Option Nat :=
  unitFactors.lookup (unit.map Char.toUpper)

/-- A unit with the Kelvin sign in the place of its `k`. -/
def IsKelvin (unit : Text) : Prop :=
  ∃ b, unit = [kelvinSign, b] ∧ b.toUpper = 'B'

variable {text digits unit : Text} {c letter : Char}

/-! Letters of units. -/

theorem toUpper_eq_self (large : 128 ≤ c.toNat) : c.toUpper = c := by
  unfold Char.toUpper
  refine dif_neg fun lower => ?_
  have lower := UInt32.le_iff_toNat_le.mp lower.2
  have same : c.toNat = c.val.toNat := rfl
  have last : 'z'.val.toNat = 122 := rfl
  omega

/-- The letters of units in their two cases; `k` has the Kelvin sign as a third one. -/
theorem sameLetter_iff (unital : letter ∈ ['b', 'k', 'm', 'g']) :
    sameLetter letter c = true ↔ c.toUpper = letter.toUpper ∨ letter = 'k' ∧ c = kelvinSign := by
  simp only [List.mem_cons, List.not_mem_nil, or_false] at unital
  by_cases small : c.toNat < 128
  · have ascii : ∀ n < 128, sameLetter letter (Char.ofNat n) = true ↔
        (Char.ofNat n).toUpper = letter.toUpper ∨ letter = 'k' ∧ Char.ofNat n = kelvinSign := by
      rcases unital with rfl | rfl | rfl | rfl <;> decide +kernel
    exact forall_of_ascii (p := fun c => sameLetter letter c = true ↔ c.toUpper = letter.toUpper ∨
      letter = 'k' ∧ c = kelvinSign) ascii small
  · have large := Nat.le_of_not_lt small
    have apart (d : Char) (ascii : d.toNat < 128) : c ≠ d := fun same => small (same ▸ ascii)
    have kelvin : c.toNat = 8490 ↔ c = kelvinSign :=
      ⟨fun code => by rw [← Char.ofNat_toNat c, code]; rfl, fun same => by rw [same]; rfl⟩
    rw [sameLetter, toLower_eq_self large, toUpper_eq_self large]
    rcases unital with rfl | rfl | rfl | rfl <;> simp [apart, kelvin]

/-! Units. -/

theorem factor?_isSome_iff : (factor? unit).isSome = true ↔
    unit.map Char.toUpper ∈ ([[], ['B'], ['K', 'B'], ['M', 'B'], ['G', 'B']] : List Text) := by
  rw [factor?, List.lookup_isSome_iff]
  simp [unitFactors]

/-- What has the form of a unit is one in ASCII letters, or one with the Kelvin sign. -/
theorem isUnitForm_iff : isUnitForm unit = true ↔ (factor? unit).isSome = true ∨ IsKelvin unit := by
  rw [factor?_isSome_iff, IsKelvin]
  rcases unit with _ | ⟨a, _ | ⟨b, _ | ⟨c, more⟩⟩⟩
  · simp [isUnitForm]
  · simp [isUnitForm, sameLetter_iff]
  · simp only [isUnitForm, Bool.and_eq_true, Bool.or_eq_true]
    rw [sameLetter_iff (by decide), sameLetter_iff (by decide), sameLetter_iff (by decide), sameLetter_iff (by decide)]
    simp only [true_and, Char.reduceEq, false_and, or_false, List.map_cons, List.map_nil, List.mem_cons, reduceCtorEq,
      List.cons.injEq, and_false, and_true, List.not_mem_nil, false_or, Char.reduceToUpper, existsAndEq]
    tauto
  · simp [isUnitForm]

theorem upper_of_ascii (ascii : ∀ c ∈ text, c.toNat < 128) : upper text = text.map Char.toUpper := by
  induction text with
  | nil => rfl
  | cons c rest ih =>
    have first : upperChar c = [c.toUpper] := by rw [upperChar, if_pos (ascii c (List.mem_cons_self ..))]
    rw [upper, List.flatMap_cons, first, List.map_cons, List.singleton_append]
    exact congrArg _ (ih fun other member => ascii other (List.mem_cons_of_mem _ member))

/-- The capitals of the letters of units. -/
theorem of_toUpper_mem (unital : c.toUpper ∈ ['B', 'K', 'M', 'G']) :
    c.toNat < 128 ∧ isDigit c = false ∧ isBlank c = false := by
  by_cases small : c.toNat < 128
  · exact ⟨small, forall_of_ascii
      (p := fun c => c.toUpper ∈ ['B', 'K', 'M', 'G'] → isDigit c = false ∧ isBlank c = false)
      (by decide +kernel) small unital⟩
  · rw [toUpper_eq_self (Nat.le_of_not_lt small)] at unital
    have capital : ['B', 'K', 'M', 'G'].all (·.toNat < 128) = true := by decide
    exact absurd (of_decide_eq_true (List.all_eq_true.mp capital c unital)) small

theorem toUpper_mem_of_factor? (known : (factor? unit).isSome = true) :
    ∀ c ∈ unit, c.toUpper ∈ ['B', 'K', 'M', 'G'] := by
  intro c member
  have letters : ∀ capitals ∈ ([[], ['B'], ['K', 'B'], ['M', 'B'], ['G', 'B']] : List Text),
      capitals ⊆ ['B', 'K', 'M', 'G'] := by decide
  exact letters _ (factor?_isSome_iff.mp known) (List.mem_map_of_mem member)

/-- A unit in ASCII letters is in the table by its capitals. -/
theorem lookup_upper (known : (factor? unit).isSome = true) : unitFactors.lookup (upper unit) = factor? unit := by
  rw [factor?, upper_of_ascii fun c member => (of_toUpper_mem (toUpper_mem_of_factor? known c member)).1]

theorem IsKelvin.upper_eq (kelvin : IsKelvin unit) : upper unit = [kelvinSign, 'B'] := by
  obtain ⟨b, rfl, same⟩ := kelvin
  have capital : upper [b] = ['B'] := by
    rw [upper_of_ascii fun c member => ?_, List.map_singleton, same]
    rw [List.mem_singleton.mp member]
    exact (of_toUpper_mem (by rw [same]; decide)).1
  have own : upper [kelvinSign] = [kelvinSign] := by decide +kernel
  calc upper [kelvinSign, b] = upper ([kelvinSign] ++ [b]) := rfl
    _ = upper [kelvinSign] ++ upper [b] := List.flatMap_append
    _ = [kelvinSign, 'B'] := by rw [own, capital, List.singleton_append]

/-! Sizes taken apart. -/

theorem not_isDigit_of_isBlank (blank : isBlank c = true) : isDigit c = false := by
  have none : ∀ n ∈ blankCodes, isDigit (Char.ofNat n) = false := by decide +kernel
  have given := none c.toNat (mem_blankCodes blank)
  rwa [Char.ofNat_toNat] at given

/-- A unit begins with a character that is neither a digit nor white space. -/
theorem head?_of_isUnitForm (form : isUnitForm unit = true) :
    ∀ c ∈ unit.head?, isDigit c = false ∧ isBlank c = false := by
  intro c first
  rcases isUnitForm_iff.mp form with known | ⟨b, rfl, -⟩
  · exact (of_toUpper_mem (toUpper_mem_of_factor? known c (List.mem_of_head? first))).2
  · obtain rfl : kelvinSign = c := by simpa using first
    decide +kernel

theorem composed_iff (form : isUnitForm unit = true) : Composed text digits unit ↔
    digits = (trim text).takeWhile isDigit ∧ unit = trimLeft ((trim text).dropWhile isDigit) ∧ digits ≠ [] := by
  have first := head?_of_isUnitForm form
  constructor
  · rintro ⟨⟨gap, whole, blank⟩, nonempty, allDigits⟩
    have stops : ∀ c ∈ (gap ++ unit).head?, isDigit c = false := by
      intro c here
      cases gap with
      | nil => exact (first c here).1
      | cons d gap =>
        obtain rfl : d = c := by simpa using here
        exact not_isDigit_of_isBlank (blank d (List.mem_cons_self ..))
    rw [whole, takeWhile_append_of_stops stops, List.takeWhile_eq_self_iff.mpr allDigits,
      dropWhile_append_eq allDigits stops]
    exact ⟨rfl, (dropWhile_append_eq blank fun c here => (first c here).2).symm, nonempty⟩
  · rintro ⟨rfl, rfl, nonempty⟩
    refine ⟨⟨indentation ((trim text).dropWhile isDigit), ?_, List.all_eq_true.mp List.all_takeWhile⟩, nonempty,
      List.all_eq_true.mp List.all_takeWhile⟩
    rw [indentation_append_trimLeft, List.takeWhile_append_dropWhile]

/-- A text with a unit of either kind is a size unless it has too many digits or the unit is in no table. -/
theorem parse_of_composed (composed : Composed text digits unit) (form : isUnitForm unit = true) :
    parse text = if maxDigits < digits.length then .error (.tooLong digits.length)
      else
        match unitFactors.lookup (upper unit) with
        | some factor => .ok (digitsValue digits * factor)
        | none => .error (.unknownUnit (upper unit)) := by
  obtain ⟨rfl, rfl, nonempty⟩ := (composed_iff form).mp composed
  rw [parse]
  exact if_neg (by simp [nonempty, form])

theorem parse_of_not_composed
    (none : ∀ digits unit, isUnitForm unit = true → ¬ Composed text digits unit) :
    parse text = .error (.malformed text) := by
  rw [parse]
  refine if_pos ?_
  cases form : isUnitForm (trimLeft ((trim text).dropWhile isDigit)) with
  | false => rw [Bool.not_false, Bool.or_true]
  | true =>
    have empty : (trim text).takeWhile isDigit = [] := by
      by_contra nonempty
      exact none _ _ form ((composed_iff form).mpr ⟨rfl, rfl, nonempty⟩)
    rw [empty]
    rfl

/-- What a text means as a size, and why it means none. -/
def Means (text : Text) : Except SizeError Nat → Prop
  | .ok bytes => ∃ digits unit factor, Composed text digits unit ∧ factor? unit = some factor ∧
      digits.length ≤ maxDigits ∧ bytes = digitsValue digits * factor
  | .error (.malformed other) => other = text ∧ ∀ digits unit, Composed text digits unit →
      factor? unit = none ∧ ¬ IsKelvin unit
  | .error (.tooLong count) => ∃ digits unit, Composed text digits unit ∧ isUnitForm unit = true ∧
      maxDigits < digits.length ∧ count = digits.length
  | .error (.unknownUnit capitals) => ∃ digits unit, Composed text digits unit ∧ IsKelvin unit ∧
      digits.length ≤ maxDigits ∧ capitals = [kelvinSign, 'B']

theorem means_parse (text : Text) : Means text (parse text) := by
  by_cases some : ∃ digits unit, isUnitForm unit = true ∧ Composed text digits unit
  · obtain ⟨digits, unit, form, composed⟩ := some
    rw [parse_of_composed composed form]
    split
    · next long => exact ⟨digits, unit, composed, form, long, rfl⟩
    · next short =>
      have short := Nat.le_of_not_lt short
      rcases isUnitForm_iff.mp form with known | kelvin
      · rw [lookup_upper known]
        obtain ⟨factor, given⟩ := Option.isSome_iff_exists.mp known
        rw [given]
        exact ⟨digits, unit, factor, composed, given, short, rfl⟩
      · rw [kelvin.upper_eq]
        exact ⟨digits, unit, composed, kelvin, short, rfl⟩
  · push Not at some
    rw [parse_of_not_composed some]
    refine ⟨rfl, fun digits unit composed => ?_⟩
    have odd : ¬ isUnitForm unit = true := fun form => some digits unit form composed
    rw [isUnitForm_iff, not_or] at odd
    exact odd.imp_left fun unknown => by simpa using unknown

/-- Digits with a unit that has the Kelvin sign in the place of its `k`. -/
def InKelvins (text : Text) : Prop :=
  ∃ digits unit, Composed text digits unit ∧ IsKelvin unit ∧ digits.length ≤ maxDigits

/-- A text in kelvins is no size, and what is missed is its unit. -/
theorem parse_of_inKelvins (kelvins : InKelvins text) : parse text = .error (.unknownUnit [kelvinSign, 'B']) := by
  obtain ⟨digits, unit, composed, kelvin, short⟩ := kelvins
  have form := isUnitForm_iff.mpr (.inr kelvin)
  have unknown : unitFactors.lookup [kelvinSign, 'B'] = none := by decide +kernel
  rw [parse_of_composed composed form, if_neg (Nat.not_lt.mpr short), kelvin.upper_eq, unknown]

/-- Only a text in kelvins is refused for something else than its value. -/
theorem inKelvins_of_failed {error : SizeError} (failed : parse text = .error error)
    (other : error.failure.kind ≠ .value) : InKelvins text := by
  have means := means_parse text
  rw [failed] at means
  cases error with
  | malformed _ => exact absurd rfl other
  | tooLong _ => exact absurd rfl other
  | unknownUnit capitals =>
    obtain ⟨digits, unit, composed, kelvin, short, -⟩ := means
    exact ⟨digits, unit, composed, kelvin, short⟩

theorem parse_eq_ok_iff {bytes : Nat} : parse text = .ok bytes ↔ ∃ digits unit factor, Composed text digits unit ∧
    factor? unit = some factor ∧ digits.length ≤ maxDigits ∧ bytes = digitsValue digits * factor := by
  constructor
  · intro read
    have means := means_parse text
    rwa [read] at means
  · rintro ⟨digits, unit, factor, composed, given, short, rfl⟩
    have known : (factor? unit).isSome = true := by rw [given]; rfl
    rw [parse_of_composed composed (isUnitForm_iff.mpr (.inl known)), if_neg (Nat.not_lt.mpr short), lookup_upper known,
      given]

/-- Digits with a unit in ASCII letters of any case are that many of the unit, if there are not too many of them. All
other texts are refused as bad values, with the one exception of a unit with the Kelvin sign: it has the form of a unit
and is in no table, so that a missing key is what is reported. -/
theorem refused_as_value_iff (text : Text) :
    (∀ bytes, parse text = .ok bytes ↔ ∃ digits unit factor, Composed text digits unit ∧ factor? unit = some factor ∧
      digits.length ≤ maxDigits ∧ bytes = digitsValue digits * factor) ∧
    ((∃ error, parse text = .error error ∧ error.failure.kind = .value) ↔
      (∀ bytes, parse text ≠ .ok bytes) ∧ ¬ InKelvins text) ∧
    ((∃ error, parse text = .error error ∧ error.failure = ⟨.key, [kelvinSign, 'B']⟩) ↔ InKelvins text) := by
  refine ⟨fun bytes => parse_eq_ok_iff, ⟨?_, ?_⟩, ⟨?_, fun kelvins => ⟨_, parse_of_inKelvins kelvins, rfl⟩⟩⟩
  · rintro ⟨error, failed, kind⟩
    refine ⟨fun bytes read => ?_, fun kelvins => ?_⟩
    · cases failed.symm.trans read
    · cases failed.symm.trans (parse_of_inKelvins kelvins)
      cases kind
  · rintro ⟨unread, free⟩
    cases outcome : parse text with
    | ok bytes => exact absurd outcome (unread bytes)
    | error error => exact ⟨error, rfl, by_contra fun other => free (inKelvins_of_failed outcome other)⟩
  · rintro ⟨error, failed, missing⟩
    exact inKelvins_of_failed failed (by rw [missing]; decide)

/-- Ten kilobytes, if the sign were a letter. -/
example : parse ['1', '0', kelvinSign, 'b'] = .error (.unknownUnit [kelvinSign, 'B']) := by
  decide +kernel

end InlineCompletion.Log.Size
