import InlineCompletion.Data.Basic
import InlineCompletion.Decimal.Exact
import InlineCompletion.Decimal.Reading
import InlineCompletion.Document.Path
import InlineCompletion.Text.Letter
import InlineCompletion.Text.Quoted

/-!
Lenient reading of loosely typed values. Numbers may come as text and truth values as numbers or
words; whatever cannot be read has one message that says why.
-/

namespace InlineCompletion

inductive Mismatch where
  | integer
  | integerText
  | integerFraction
  | integerInfinite
  | integerTooLong
  | number
  | numberText
  | boolean
  | booleanText
  | text
  | oneOf (words : List Text)
  | path
  | missing
  /-- The value has the right type and breaks a rule of its own. -/
  | rule (reason : Text)
  deriving DecidableEq, Repr

/-- Quoted words, the last one behind an "or". -/
def alternatives : List Text → Text
  | [] => []
  | [word] => Text.quoted word
  | [first, last] => Text.quoted first ++ " or " ++ Text.quoted last
  | word :: words => Text.quoted word ++ ", " ++ alternatives words

def Mismatch.message : Mismatch → Text
  | integer => "Input should be a valid integer"
  | integerText => "Input should be a valid integer, unable to parse string as an integer"
  | integerFraction => "Input should be a valid integer, got a number with a fractional part"
  | integerInfinite => "Input should be a finite number"
  | integerTooLong => "Unable to parse input string as an integer, exceeded maximum size"
  | number => "Input should be a valid number"
  | numberText => "Input should be a valid number, unable to parse string as a number"
  | boolean => "Input should be a valid boolean"
  | booleanText => "Input should be a valid boolean, unable to interpret input"
  | text => "Input should be a valid string"
  | oneOf words => "Input should be " ++ alternatives words
  | path => "Input is not a valid path"
  | missing => "Field required"
  | rule reason => "Value error, " ++ reason

namespace Coerce

/-- A number without a fraction as an integer. -/
def wholeNumber (x : Float) : Except Mismatch Int :=
  match Decimal.Exact.ofFloat x with
  | .finite negative mantissa exponent =>
    let r := Decimal.Ratio.ofBinary mantissa exponent
    if r.num % r.den = 0 then
      let n : Int := (r.num / r.den : Nat)
      .ok (if negative then -n else n)
    else .error .integerFraction
  | _ => .error .integerInfinite

def int : Data → Except Mismatch Int
  | .int n => .ok n
  | .bool b => .ok (if b then 1 else 0)
  | .real x => wholeNumber x
  | .text t =>
    match Decimal.readSettingInt t with
    | .value n => .ok n
    | .malformed => .error .integerText
    | .tooLong => .error .integerTooLong
  | _ => .error .integer

/-- The nearest binary64 number, if there is one. -/
def floatOfInt (n : Int) : Option Float :=
  let x := Decimal.floatOf n.natAbs 0
  if x.isInf then none else some (if n < 0 then -x else x)

def real : Data → Except Mismatch Float
  | .real x => .ok x
  | .int n => (floatOfInt n).elim (.error .number) .ok
  | .text t => (Decimal.readSettingFloat t).elim (.error .numberText) .ok
  | _ => .error .number

def trueWords : List Text := ["1", "true", "t", "yes", "y", "on"]

def falseWords : List Text := ["0", "false", "f", "no", "n", "off"]

def truth (n : Int) : Except Mismatch Bool :=
  if n = 1 then .ok true else if n = 0 then .ok false else .error .booleanText

def bool : Data → Except Mismatch Bool
  | .bool b => .ok b
  | .int n => if (floatOfInt n).isSome then truth n else .error .boolean
  | .real x =>
    match wholeNumber x with
    | .ok n => truth n
    | .error _ => .error .boolean
  | .text t =>
    let word := Decimal.lowerAscii t
    if trueWords.contains word then .ok true
    else if falseWords.contains word then .ok false
    else .error .booleanText
  | _ => .error .boolean

def text : Data → Except Mismatch Text
  | .text t => .ok t
  | _ => .error .text

/-- One of the given words exactly. -/
def oneOf (words : List Text) : Data → Except Mismatch Text
  | .text t => if words.contains t then .ok t else .error (.oneOf words)
  | _ => .error (.oneOf words)

/-- A path in its plain form, or nothing. -/
def optionalPath : Data → Except Mismatch (Option Path)
  | .null => .ok none
  | .text t => .ok (some (Path.ofText t))
  | _ => .error .path

end Coerce

end InlineCompletion
