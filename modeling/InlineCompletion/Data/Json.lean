import InlineCompletion.Data.Basic
import InlineCompletion.Decimal.Writing
import InlineCompletion.Text.Quoted

/-!
Values written as JSON on one line, in ASCII: a comma or colon is followed by a space, and other
characters are escaped by their UTF-16 units.
-/

namespace InlineCompletion.Json

open Text

def escapeUnit (unit : Nat) : Text :=
  backslash :: 'u' :: hex 4 unit

/-- A character beyond the first plane takes two units. -/
def escapeChar (n : Nat) : Text :=
  if n < 65536 then escapeUnit n
  else escapeUnit (55296 + (n - 65536) / 1024) ++ escapeUnit (56320 + (n - 65536) % 1024)

def escape (c : Char) : Text :=
  if c = doubleQuote || c = backslash then [backslash, c]
  else if c = '\n' then [backslash, 'n']
  else if c = '\r' then [backslash, 'r']
  else if c = '\t' then [backslash, 't']
  else if c.toNat = 8 then [backslash, 'b']
  else if c.toNat = 12 then [backslash, 'f']
  else if 32 ≤ c.toNat && c.toNat ≤ 126 then [c]
  else escapeChar c.toNat

def string (text : Text) : Text :=
  doubleQuote :: text.flatMap escape ++ [doubleQuote]

def number (x : Float) : Text :=
  if x.isNaN then "NaN"
  else if x.isInf then (if x < 0.0 then "-Infinity" else "Infinity")
  else Decimal.floatText x

mutual

def write : Data → Text
  | .null => "null"
  | .bool b => if b then "true" else "false"
  | .int n => Text.ofInt n
  | .real x => number x
  | .text t => string t
  | .list items => '[' :: writeItems items ++ "]"
  | .record fields => openBrace :: writeFields fields ++ [closeBrace]

def writeItems : List Data → Text
  | [] => []
  | [item] => write item
  | item :: items => write item ++ ", " ++ writeItems items

def writeFields : List (Text × Data) → Text
  | [] => []
  | [(key, value)] => string key ++ ": " ++ write value
  | (key, value) :: fields => string key ++ ": " ++ write value ++ ", " ++ writeFields fields

end

end InlineCompletion.Json
