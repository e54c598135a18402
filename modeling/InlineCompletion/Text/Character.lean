import InlineCompletion.Text.Basic

/-!
Classes of characters: ranges of code points, white space and the digits of every script.
-/

namespace InlineCompletion.Text

/-!
Character classes given as ascending lists of code point ranges, both ends included.
-/

/-- Whether the code point lies in one of the ascending ranges. -/
def inRanges (n : Nat) : List (Nat × Nat) → Bool
  | [] => false
  | (low, high) :: rest => low ≤ n && (n ≤ high || inRanges n rest)

/-!
White space: the controls from tab to carriage return, the four information separators, the
next-line control and the space separators of Unicode. Zero-width characters are not white space.
-/

def isBlank (c : Char) : Bool :=
  let n := c.toNat
  if n < 128 then (9 ≤ n && n ≤ 13) || (28 ≤ n && n ≤ 32)
  else n = 133 || n = 160 || n = 5760 || (8192 ≤ n && n ≤ 8202) || n = 8232 || n = 8233 ||
    n = 8239 || n = 8287 || n = 12288

def trimLeft (text : Text) : Text :=
  text.dropWhile isBlank

def trimRight (text : Text) : Text :=
  dropTrailing isBlank text

def trim (text : Text) : Text :=
  trimRight (trimLeft text)

def allBlank (text : Text) : Bool :=
  text.all isBlank

/-- The leading white space. -/
def indentation (text : Text) : Text :=
  text.takeWhile isBlank

theorem indentation_append_trimLeft (text : Text) : indentation text ++ trimLeft text = text :=
  List.takeWhile_append_dropWhile

/-- The maximal runs without white space. -/
def words (text : Text) : List Text :=
  let (current, done) := text.foldr step ([], [])
  close current done
where
  close (current : Text) (done : List Text) : List Text :=
    if current.isEmpty then done else current :: done
  step (c : Char) : Text × List Text → Text × List Text
    | (current, done) => if isBlank c then ([], close current done) else (c :: current, done)

/-!
Decimal digits of every script. Each script has its ten digits in a row, so the code point of
its zero determines the others.
-/

def zeroDigits : List Nat :=
  [48, 1632, 1776, 1984, 2406, 2534, 2662, 2790, 2918, 3046, 3174, 3302, 3430, 3558, 3664, 3792,
   3872, 4160, 4240, 6112, 6160, 6470, 6608, 6784, 6800, 6992, 7088, 7232, 7248, 42528, 43216,
   43264, 43472, 43504, 43600, 44016, 65296, 66720, 68912, 69734, 69872, 69942, 70096, 70384,
   70736, 70864, 71248, 71360, 71472, 71904, 72016, 72784, 73040, 73120, 92768, 92864, 93008,
   120782, 120792, 120802, 120812, 120822, 123200, 123632, 125264, 130032]

def digitAmong (n : Nat) : List Nat → Option Nat
  | [] => none
  | first :: rest => if first ≤ n && n < first + 10 then some (n - first) else digitAmong n rest

def digitValue? (c : Char) : Option Nat :=
  digitAmong c.toNat zeroDigits

def isDigit (c : Char) : Bool :=
  (digitValue? c).isSome

/-- The number written by the digits; a character that is no digit counts as zero. -/
def digitsValue (digits : Text) : Nat :=
  digits.foldl (fun total c => 10 * total + (digitValue? c).getD 0) 0

end InlineCompletion.Text
