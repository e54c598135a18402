import InlineCompletion.Scan.Literal
import InlineCompletion.Text.Character

/-!
Brackets left open before the cursor, found by bounded scans over a window of lines.
-/

namespace InlineCompletion.Scan

open Text

/-- The columns of the parentheses still open after reading marked characters, innermost first. -/
def openParens : List (Char × Bool) → Nat → List Nat → List Nat
  | [], _, stack => stack
  | (c, masked) :: rest, column, stack =>
    openParens rest (column + 1)
      (if masked then stack
       else if c = '(' then column :: stack
       else if c = ')' then stack.tail
       else stack)

/-- The column of the innermost parenthesis that is open at the end of the text. -/
def innermostOpenParen (text : Text) : Option Nat :=
  (openParens (text.zip (literalMask text)) 0 []).head?

/-- What a backward scan for an open brace has found out so far. -/
inductive BraceScan where
  | seeking (depth : Nat)
  | found (column : Nat)
  | stopped
  deriving DecidableEq, Repr

/-- Reads a line from its end: `rest` is what is left of it, reversed. A semicolon outside of
closed braces means that the cursor stands in a statement list. -/
def seekBrace : Nat → Text → BraceScan
  | depth, [] => .seeking depth
  | depth, c :: rest =>
    if c = closeBrace then seekBrace (depth + 1) rest
    else if c = openBrace then
      match depth with
      | 0 => .found rest.length
      | outer + 1 => seekBrace outer rest
    else if c = ';' && depth = 0 then .stopped
    else seekBrace depth rest

/-- The code of a line: its comment dropped and its literals blanked. -/
def codeOf (line : Text) : Text :=
  blankLiterals (dropComment line)

/-- Goes through the lines from the last one upwards. -/
def seekBraceUp : Nat → List Text → Option (Nat × Nat)
  | _, [] => none
  | depth, line :: above =>
    match seekBrace depth (codeOf line).reverse with
    | .found column => some (above.length, column)
    | .stopped => none
    | .seeking deeper => seekBraceUp deeper above

/-- The line and column of the innermost brace that is open at the end of the window. -/
def unmatchedBrace (window : List Text) : Option (Nat × Nat) :=
  seekBraceUp 0 window.reverse

/-- The nearest line that is not blank among lines listed upwards, trimmed. -/
def nearestNonBlank : List Text → Text
  | [] => []
  | line :: above => if allBlank line then nearestNonBlank above else trim line

/-- The nearest line before the index that is not blank, trimmed. -/
def previousNonBlank (window : List Text) (index : Int) : Except ScanError Text :=
  if window.length < index then .error .indexOutOfRange
  else .ok (nearestNonBlank (window.take index.toNat).reverse)

end InlineCompletion.Scan
