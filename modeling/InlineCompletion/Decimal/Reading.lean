import InlineCompletion.Text.Character

/-!
Numbers read from text.
-/

namespace InlineCompletion.Decimal

open Text

/-- Digits of any script, with single underscores between them; at most 4300 of them. -/
def readDigits (text : Text) : Option Nat :=
  let digits := text.filter (· ≠ '_')
  if wellSpaced text && digits.length ≤ 4300 then some (digitsValue digits) else none
where
  /-- A digit, then digits each perhaps behind one underscore. -/
  wellSpaced : Text → Bool
    | [] => false
    | c :: rest => isDigit c && more rest
  more : Text → Bool
    | [] => true
    | ['_'] => false
    | c :: d :: rest => if c = '_' then isDigit d && more rest else isDigit c && more (d :: rest)
    | [c] => isDigit c

def readSigned (read : Text → Option Nat) : Text → Option Int
  | '-' :: rest => (read rest).map fun n => -(n : Int)
  | '+' :: rest => (read rest).map fun n => (n : Int)
  | text => (read text).map fun n => (n : Int)

/-- A whole number with white space around it. -/
def readInt (text : Text) : Option Int :=
  readSigned readDigits (trim text)

def isAsciiDigit (c : Char) : Bool :=
  c.isDigit

/-- White space that a setting may have around its number: separators of information do not
count. -/
def isMargin (c : Char) : Bool :=
  isBlank c && !(28 ≤ c.toNat && c.toNat ≤ 31)

def trimMargin (text : Text) : Text :=
  dropTrailing isMargin (text.dropWhile isMargin)

/-- The text without single underscores inside it. -/
def dropUnderscores (text : Text) : Option Text :=
  if startsWith text "_" || endsWith text "_" || contains text "__" then none
  else some (text.filter (· ≠ '_'))

/-- The text before a point that only zeros follow. -/
def dropZeroFraction (text : Text) : Text :=
  let fraction := text.dropWhile (· ≠ '.')
  if (fraction.drop 1).all (· = '0') then text.takeWhile (· ≠ '.') else text

inductive IntReading where
  | value (n : Int)
  | malformed
  | tooLong
  deriving DecidableEq, Repr

def readPlainDigits (text : Text) : Option Nat :=
  if !text.isEmpty && text.all isAsciiDigit then some (digitsValue text) else none

/-- A whole number in ASCII digits, perhaps with underscores and a fraction of zeros. -/
def readSettingInt (text : Text) : IntReading :=
  match dropUnderscores (dropZeroFraction (trimMargin text)) with
  | none => .malformed
  | some core =>
    match readSigned readPlainDigits core with
    | none => .malformed
    | some n => if 4300 < (core.filter isAsciiDigit).length then .tooLong else .value n

/-- `digits * 10 ^ power`, rounded to the nearest binary64 number. Powers beyond the range are cut
off first. -/
def floatOf (digits : Nat) (power : Int) : Float :=
  let length : Int := (Nat.toDigits 10 digits).length
  if digits = 0 then 0.0
  else if 400 < power + length then Float.ofScientific 1 false 400
  else if power + length < -400 then 0.0
  else if power < 0 then Float.ofScientific digits true power.natAbs
  else Float.ofScientific digits false power.natAbs

/-- Unsigned: digits with perhaps a point, then perhaps an exponent. -/
def readUnsignedFloat (text : Text) : Option Float :=
  let whole := text.takeWhile isAsciiDigit
  let rest := text.dropWhile isAsciiDigit
  let (fraction, rest) :=
    match rest with
    | '.' :: more => (more.takeWhile isAsciiDigit, more.dropWhile isAsciiDigit)
    | _ => ([], rest)
  if whole.isEmpty && fraction.isEmpty then none
  else
    let digits := digitsValue (whole ++ fraction)
    let places : Int := fraction.length
    match rest with
    | [] => some (floatOf digits (-places))
    | e :: exponent =>
      if e = 'e' || e = 'E' then
        (readSigned readPlainDigits exponent).map fun power => floatOf digits (power - places)
      else none

def lowerAscii (text : Text) : Text :=
  text.map Char.toLower

def readMagnitude (text : Text) : Option Float :=
  let word := lowerAscii text
  if word = ("inf" : Text) || word = ("infinity" : Text) then some (Float.ofScientific 1 false 400)
  else if word = ("nan" : Text) then some (0.0 / 0.0)
  else readUnsignedFloat text

def readSignedFloat : Text → Option Float
  | '-' :: rest => (readMagnitude rest).map fun x => -x
  | '+' :: rest => readMagnitude rest
  | text => readMagnitude text

/-- A number with white space around it, perhaps with underscores inside. -/
def readSettingFloat (text : Text) : Option Float :=
  let core := trimMargin text
  (readSignedFloat core).or ((dropUnderscores core).bind readSignedFloat)

end InlineCompletion.Decimal
