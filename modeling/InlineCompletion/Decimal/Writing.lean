import InlineCompletion.Decimal.Exact
import InlineCompletion.Text.Basic

/-!
Binary64 numbers as decimals.
-/

namespace InlineCompletion.Decimal

/-!
The shortest decimal that reads back as the same binary64 number; of several the nearest.
-/

/-- `digits * 10 ^ power`. -/
structure Scientific where
  digits : Nat
  power : Int
  deriving DecidableEq, Repr

/-- The ends of the numbers that round to a given one, and whether they do so themselves. -/
structure Interval where
  low : Ratio
  high : Ratio
  closed : Bool

/-- The gap below a power of two is half the one above it. -/
def Interval.around (mantissa : Nat) (exponent : Int) : Interval where
  low := .ofBinary (4 * mantissa - if mantissa = hiddenBit && -1074 < exponent then 1 else 2)
    (exponent - 2)
  high := .ofBinary (4 * mantissa + 2) (exponent - 2)
  closed := mantissa % 2 = 0

def Interval.contains (interval : Interval) (r : Ratio) : Bool :=
  if interval.closed then !r.lt interval.low && !interval.high.lt r
  else interval.low.lt r && r.lt interval.high

def distance (a b : Ratio) : Ratio :=
  let left := a.num * b.den
  let right := b.num * a.den
  ⟨(left - right) + (right - left), a.den * b.den⟩

/-- The neighbour of the value on the grid of `10 ^ power` that lies in the interval, the nearer of
two and the even one of two equally near. -/
def onGrid (value : Ratio) (interval : Interval) (power : Int) : Option Nat :=
  let scaled := value.scale (-power)
  let below := scaled.num / scaled.den
  let point (n : Nat) : Ratio := Ratio.scale ⟨n, 1⟩ power
  let first := below ≠ 0 && interval.contains (point below)
  let second := interval.contains (point (below + 1))
  if first && second then some scaled.round
  else if first then some below
  else if second then some (below + 1)
  else none

/-- Tries grids of growing fineness. -/
def seekShortest (value : Ratio) (interval : Interval) : Nat → Int → Scientific
  | 0, power => ⟨(value.scale (-power)).round, power⟩
  | more + 1, power =>
    match onGrid value interval power with
    | some digits => ⟨digits, power⟩
    | none => seekShortest value interval more (power - 1)

/-- Seventeen digits always suffice. -/
def shortest (mantissa : Nat) (exponent : Int) : Scientific :=
  let value := Ratio.ofBinary mantissa exponent
  seekShortest value (.around mantissa exponent) 17 value.magnitude

/-- Digits with a point before the last `places` of them. -/
def pointed (digits : Text) (places : Nat) : Text :=
  let padded := List.replicate (places + 1 - digits.length) '0' ++ digits
  padded.take (padded.length - places) ++ '.' :: padded.drop (padded.length - places)

/-- A sign and at least two digits. -/
def exponentText (exponent : Int) : Text :=
  let digits := Text.ofNat exponent.natAbs
  (if exponent < 0 then '-' else '+') :: List.replicate (2 - digits.length) '0' ++ digits

/-- Digits without the zeros at their end, and how many there were. -/
def significant (digits : Text) : Text :=
  Text.dropTrailing (· = '0') digits

/-- Positional from `10 ^ -4` up to `10 ^ 16`, with an exponent elsewhere; whole numbers keep one
zero behind the point. -/
def Scientific.text (s : Scientific) : Text :=
  let digits := Text.ofNat s.digits
  let leading := s.power + digits.length - 1
  if -4 ≤ leading && leading < 16 then
    if 0 ≤ s.power then digits ++ List.replicate s.power.toNat '0' ++ ".0"
    else
      let whole := pointed digits s.power.natAbs
      let shorter := significant whole
      if Text.endsWith shorter "." then shorter ++ "0" else shorter
  else
    let core := significant digits
    core.take 1 ++ (if core.length ≤ 1 then [] else '.' :: core.drop 1) ++
      'e' :: exponentText leading

def signed (negative : Bool) (text : Text) : Text :=
  if negative then '-' :: text else text

/-- The text that reads back as the same number. -/
def floatText (x : Float) : Text :=
  match Exact.ofFloat x with
  | .notANumber => "nan"
  | .infinite negative => signed negative "inf"
  | .finite negative mantissa exponent =>
    signed negative (if mantissa = 0 then "0.0" else (shortest mantissa exponent).text)

/-!
Decimals with a given number of digits, rounded from the exact value; a tie goes to the even digit.
-/

/-- With `places` digits behind the point. -/
def fixed (value : Ratio) (places : Nat) : Text :=
  let digits := Text.ofNat (value.scale places).round
  if places = 0 then digits else pointed digits places

/-- `places + 1` significant digits and the power of ten of the first one. -/
def scientificDigits (value : Ratio) (places : Nat) : Text × Int :=
  if value.num = 0 then (List.replicate (places + 1) '0', 0)
  else
    let leading := value.magnitude
    let digits := Text.ofNat (value.scale (places - leading)).round
    if digits.length = places + 2 then (digits.take (places + 1), leading + 1)
    else (digits, leading)

/-- One digit before the point, `places` behind it and an exponent. -/
def scientific (value : Ratio) (places : Nat) : Text :=
  let (digits, leading) := scientificDigits value places
  digits.take 1 ++ (if places = 0 then [] else '.' :: digits.drop 1) ++
    'e' :: exponentText leading

/-- Drops zeros behind the point, and a point with nothing behind it. -/
def dropZeros (text : Text) : Text :=
  if '.' ∈ text then Text.dropTrailing (· = '.') (Text.dropTrailing (· = '0') text) else text

/-- `digits` significant digits, positional where the exponent is moderate. -/
def general (value : Ratio) (digits : Nat) (keepZeros : Bool) : Text :=
  let digits := max digits 1
  let leading := (scientificDigits value (digits - 1)).2
  let tidy (text : Text) := if keepZeros then text else dropZeros text
  if -4 ≤ leading && leading < digits then
    tidy (fixed value ((digits : Int) - 1 - leading).toNat)
  else
    let (significand, power) := scientificDigits value (digits - 1)
    tidy (significand.take 1 ++ (if digits = 1 then [] else '.' :: significand.drop 1)) ++
      'e' :: exponentText power

end InlineCompletion.Decimal
