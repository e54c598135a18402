import InlineCompletion.Scan.Literal
import InlineCompletion.Symbol.Purpose
import InlineCompletion.Symbol.Variable
import InlineCompletion.Text.Pattern

/-!
Identifiers that may need an import: capitalised names that a text uses and neither declares nor
imports.
-/

namespace InlineCompletion.Import

open Pattern

def statementStarts : List (Pattern Unit) :=
  [do
    blanks
    oneOfWords ["import", "from"]
    wordEdge,
  do
    many inLine
    wordEdge
    literal "require("]

def isStatement (line : Text) : Bool :=
  statementStarts.any fun start => matchesStart start line

def declared : Pattern (Cursor × Cursor) := do
  wordEdge
  oneOfWords
    ["class", "interface", "type", "enum", "function", "def", "const", "let", "var"]
  someBlanks
  captured name

def capitalised : Pattern (Cursor × Cursor) := do
  wordEdge
  let word ← captured do
    char Char.isUpper
    many fun c => c.isAlphanum || c = '_'
  wordEdge
  pure word

def builtins : List Text :=
  ["Object", "Array", "String", "Number", "Boolean", "Promise", "Math", "JSON", "Date", "Error",
    "Map", "Set", "Symbol", "RegExp", "None", "True", "False", "Exception", "ValueError",
    "TypeError", "KeyError", "RuntimeError", "React", "console", "TODO", "FIXME"]

/-- An identifier without lower-case letters. -/
def isAllCapitals (word : Text) : Bool :=
  word.any Char.isUpper && !word.any Char.isLower

/-- The lines of code with literals blanked; comment lines are left out. -/
def codeLines (text : Text) : List (Text × Bool) :=
  ((Text.lines text).filter fun line => !Purpose.isCommentLine line).map fun line =>
    (Scan.blankLiterals line, isStatement line)

def importedNames (code : List (Text × Bool)) : List Text :=
  (code.filter (·.2)).flatMap fun line => Variable.captures (captured name) line.1

def declaredNames (code : List (Text × Bool)) : List Text :=
  (code.filter (!·.2)).flatMap fun line => Variable.captures declared line.1

def usedNames (code : List (Text × Bool)) : List Text :=
  firstOccurrences ((code.filter (!·.2)).flatMap fun line => Variable.captures capitalised line.1)

def maxCandidates : Nat := 10

def candidates (text : Text) : List Text :=
  let code := codeLines text
  let known := declaredNames code ++ importedNames code ++ builtins
  let isCandidate := fun word => !known.contains word && !isAllCapitals word
  ((usedNames code).filter isCandidate).take maxCandidates

end InlineCompletion.Import
