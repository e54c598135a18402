/-!
The exact value of a binary64 number, read off its bits.
-/

namespace InlineCompletion.Decimal

/-- A finite number is `mantissa * 2 ^ exponent` with a sign of its own. -/
inductive Exact where
  | finite (negative : Bool) (mantissa : Nat) (exponent : Int)
  | infinite (negative : Bool)
  | notANumber
  deriving DecidableEq, Repr

/-- The lowest bit that the fraction of a binary64 number does not hold. -/
def hiddenBit : Nat := 0x10000000000000

def signBit : Nat := 0x8000000000000000

def Exact.ofFloat (x : Float) : Exact :=
  let bits := x.toBits.toNat
  let negative : Bool := signBit ≤ bits
  let field : Nat := bits / hiddenBit % 2048
  let fraction : Nat := bits % hiddenBit
  if field = 2047 then
    if fraction = 0 then .infinite negative else .notANumber
  else if field = 0 then .finite negative fraction (-1074)
  else .finite negative (hiddenBit + fraction) ((field : Int) - 1075)

/-- A positive ratio of natural numbers. -/
structure Ratio where
  num : Nat
  den : Nat

/-- `n * 2 ^ exponent`. -/
def Ratio.ofBinary (n : Nat) (exponent : Int) : Ratio :=
  if exponent < 0 then ⟨n, Nat.pow 2 exponent.natAbs⟩
  else ⟨n * Nat.pow 2 exponent.natAbs, 1⟩

/-- The ratio times `10 ^ power`. -/
def Ratio.scale (r : Ratio) (power : Int) : Ratio :=
  if power < 0 then ⟨r.num, r.den * Nat.pow 10 power.natAbs⟩
  else ⟨r.num * Nat.pow 10 power.natAbs, r.den⟩

/-- The nearest whole number; of two equally near ones the even one. -/
def Ratio.round (r : Ratio) : Nat :=
  let quotient := r.num / r.den
  let twice := 2 * (r.num % r.den)
  if twice < r.den then quotient
  else if r.den < twice then quotient + 1
  else quotient + quotient % 2

def Ratio.lt (a b : Ratio) : Bool :=
  a.num * b.den < b.num * a.den

/-- The number of decimal digits; zero has one. -/
def digitCount (n : Nat) : Nat :=
  (Nat.toDigits 10 n).length

/-- The power of ten of the first digit of a positive ratio. -/
def Ratio.magnitude (r : Ratio) : Int :=
  if r.den ≤ r.num then (digitCount (r.num / r.den) : Int) - 1
  else
    -- The inverse has as many digits as there are places before the first one, up to one.
    let places := digitCount (r.den / r.num)
    if r.den ≤ r.num * Nat.pow 10 (places - 1) then 1 - (places : Int) else -(places : Int)

end InlineCompletion.Decimal
