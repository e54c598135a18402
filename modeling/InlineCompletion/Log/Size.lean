import InlineCompletion.Failure
import InlineCompletion.Text.Character
import InlineCompletion.Text.Letter

/-!
Sizes such as `10MB`: digits, perhaps white space, and perhaps a unit in either case.
-/

namespace InlineCompletion.Log

inductive SizeError where
  | malformed (text : Text)
  /-- More digits than a number may have. -/
  | tooLong (digits : Nat)
  | unknownUnit (unit : Text)
  deriving DecidableEq, Repr

def SizeError.failure : SizeError → Failure
  | malformed text =>
    ⟨.value, "Invalid log rotation size: " ++ Text.quoted text ++ ". Use e.g. '10MB'."⟩
  | tooLong digits =>
    ⟨.value, "Exceeds the limit (4300 digits) for integer string conversion: value has " ++
      Text.ofNat digits ++ " digits; use sys.set_int_max_str_digits() to increase the limit"⟩
  | unknownUnit unit => ⟨.key, unit⟩

namespace Size

def maxDigits : Nat := 4300

def unitFactors : List (Text × Nat) :=
  [([], 1), ("B", 1), ("KB", 1024), ("MB", 1024 * 1024), ("GB", 1024 * 1024 * 1024)]

/-- Whether the text has the form of a unit: perhaps a k, m or g, and a b. -/
def isUnitForm : Text → Bool
  | [] => true
  | [b] => Text.sameLetter 'b' b
  | [scale, b] =>
    (Text.sameLetter 'k' scale || Text.sameLetter 'm' scale || Text.sameLetter 'g' scale) &&
      Text.sameLetter 'b' b
  | _ => false

/-- The number of bytes. The digits are read before the unit is looked up. A unit of the right form
whose capitals are not in the table is reported by them. -/
def parse (text : Text) : Except SizeError Nat :=
  let core := Text.trim text
  let digits := core.takeWhile Text.isDigit
  let unit := Text.trimLeft (core.dropWhile Text.isDigit)
  if digits.isEmpty || !isUnitForm unit then .error (.malformed text)
  else if maxDigits < digits.length then .error (.tooLong digits.length)
  else
    let capitals := Text.upper unit
    match unitFactors.lookup capitals with
    | some factor => .ok (Text.digitsValue digits * factor)
    | none => .error (.unknownUnit capitals)

end Size

end InlineCompletion.Log
