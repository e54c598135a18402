import InlineCompletion.Document.Basic
import InlineCompletion.Scan.Literal
import InlineCompletion.Text.Pattern

/-!
Names of variables: the one a line assigns, and those declared above the cursor.
-/

namespace InlineCompletion.Variable

open Pattern

def declarators : Pattern Unit :=
  oneOfWords ["const", "let", "var"]

def wordBefore (equals : Pattern Unit) : Pattern (Cursor × Cursor) := do
  let word ← captured (many1 Text.isWordChar)
  blanks
  equals
  pure word

/-- A declared name with an equals sign. -/
def declaration : Pattern (Cursor × Cursor) := do
  declarators
  someBlanks
  wordBefore (literal "=")

def memberAssignment : Pattern (Cursor × Cursor) := do
  oneOfWords ["this.", "self."]
  wordBefore (literal "=")

/-- The text read by the leftmost match. -/
def captureIn (p : Pattern (Cursor × Cursor)) (text : Text) : Option Text :=
  (search p text).map fun found => found.value.1.between found.value.2

/-- The name declared on the line, else the member assigned, else any word before an equals
sign. -/
def assignedName (line : Text) : Option Text :=
  (captureIn declaration line).or <|
    (captureIn memberAssignment line).or <|
      captureIn (wordBefore (literal "=")) line

/-- The texts read by all matches, from left to right. -/
def captures (p : Pattern (Cursor × Cursor)) (text : Text) : List Text :=
  (findAll p text).map fun found => found.value.1.between found.value.2

def declared : Pattern (Cursor × Cursor) := do
  wordEdge
  declarators
  someBlanks
  captured name

/-- A line that begins with an assignment, perhaps with a type. -/
def assignment : Pattern (Cursor × Cursor) := do
  blanks
  let word ← captured do
    char fun c => c.isAlpha || c = '_'
    many Text.isWordChar
  blanks
  optional do
    literal ":"
    blanks
    many1 (· ≠ '=')
  literal "="
  notAhead (literal "=")
  pure word

def parameterList : Pattern (Cursor × Cursor) := do
  choice
    [do literal "function"; blanks; many Text.isNameChar,
    do literal "def"; someBlanks; many1 Text.isWordChar,
    do literal "func"; someBlanks; many1 Text.isWordChar]
  blanks
  literal "("
  let list ← captured (many (· ≠ ')'))
  literal ")"
  pure list

/-- The name at the head of a parameter, without stars, type and default. -/
def parameterName (parameter : Text) : Text :=
  ((Text.trim parameter).dropWhile (· = '*')).takeWhile fun c =>
    !(c = ':' || c = '=' || Text.isBlank c)

def parameterNames (list : Text) : List Text :=
  ((Text.splitOn ',' list).map parameterName).filter (!·.isEmpty)

/-- The names a line of code introduces: declared ones, then an assigned one, then parameters. -/
def introduced (line : Text) : List Text :=
  let code := Scan.blankLiterals line
  captures declared code ++
    ((matchStart assignment code).map fun found => found.value.1.between found.value.2).toList ++
    (captures parameterList code).flatMap parameterNames

def keywords : List Text :=
  ["if", "else", "for", "while", "return", "function", "const", "let", "var", "class", "def",
    "import", "from", "new", "this", "self", "true", "false", "null", "None", "True", "False",
    "await", "async"]

def maxInScope : Nat := 10

/-- All names introduced in the lines, the nearest line first. -/
def allInScope (lines : List Text) : List Text :=
  firstOccurrences ((lines.reverse.flatMap introduced).filter fun word => !keywords.contains word)

/-- The nearest names introduced above the cursor. -/
def inScope (document : Document) (position : Position) (window : Int) : List Text :=
  (allInScope (document.linesAbove position window)).take maxInScope

end InlineCompletion.Variable
