import InlineCompletion.Scan.Literal
import InlineCompletion.Text.Pattern

/-!
One object property out of the text of a model: the first line that reads as a new `name: value`.
-/

namespace InlineCompletion.ReplyProperty

open Pattern

def declarators : Pattern Unit :=
  oneOfWords ["const", "let", "var"]

def openBrace : Pattern Unit :=
  char (· = Text.openBrace)

def closeBrace : Pattern Unit :=
  char (· = Text.closeBrace)

def isTypeChar (c : Char) : Bool :=
  Text.isWordChar c || c = '<' || c = '>' || c = '[' || c = ']'

/-- A declaration up to the brace of its object. -/
def declarationOpen : Pattern Unit := do
  declarators
  someBlanks
  many1 Text.isWordChar
  blanks
  optional do
    literal ":"
    blanks
    many1 isTypeChar
    blanks
  literal "="
  blanks
  openBrace

/-- An assignment up to the brace of its object. -/
def assignmentOpen : Pattern Unit := do
  many1 fun c => Text.isWordChar c || c = '.'
  blanks
  literal "="
  blanks
  openBrace

def declaration : Pattern Unit := do
  declarators
  someBlanks
  many1 Text.isWordChar
  blanks
  literal "="

def leadingBrace : Pattern Unit := do
  atStart
  blanks
  openBrace
  blanks

def trailingBrace : Pattern Unit := do
  blanks
  closeBrace
  blanks
  optional (literal ";")
  blanks
  atEnd

def quotedColon : Pattern Unit := do
  char (· = Text.doubleQuote)
  blanks
  literal ":"
  blanks
  char (· = Text.doubleQuote)

/-- A pair of brackets with nothing but white space between them. -/
def hollow (left right : Char) : Pattern Unit := do
  char (· = left)
  someBlanks
  char (· = right)

/-- The text with its wrapping object taken off and its spacing evened out. -/
def unwrap (text : Text) : Text :=
  let text := eraseAll assignmentOpen (eraseAll declarationOpen text)
  let text := eraseAll trailingBrace (eraseAll leadingBrace text)
  let text := replaceAll quotedColon
    (fun _ => [Text.doubleQuote, ':', ' ', Text.doubleQuote]) text
  let text := replaceAll (hollow Text.openBrace Text.closeBrace)
    (fun _ => [Text.openBrace, Text.closeBrace]) text
  let text := replaceAll (hollow '(' ')') (fun _ => "()") text
  replaceAll (hollow '[' ']') (fun _ => "[]") text

def quotedKey : Pattern (Cursor × Cursor) := do
  char fun c => c = Text.doubleQuote || c = Text.singleQuote
  let key ← captured (many1 Text.isNameChar)
  char fun c => c = Text.doubleQuote || c = Text.singleQuote
  blanks
  literal ":"
  pure key

/-- The line with its quoted keys bare. -/
def bareKeys (line : Text) : Text :=
  replaceAll quotedKey (fun found => found.value.1.between found.value.2 ++ [':']) line

/-- Names with white space between them, a colon and the white space after it. -/
def keyPattern : Pattern (Cursor × Cursor) := do
  let names ← captured do
    name
    star do
      someBlanks
      name
  blanks
  literal ":"
  blanks
  pure names

/-- The first name and the value of a line, without commas at its end. -/
def split (line : Text) : Option (Text × Text) :=
  (matchStart keyPattern line).map fun found =>
    (((Text.words (found.value.1.between found.value.2)).headD []),
      Text.trimRight (Text.dropTrailing (· = ',') (Text.trimRight found.last.after)))

def isAdmissible (existing : List Text) (name value : Text) : Bool :=
  !value.isEmpty && !Text.endsWithAny value [[Text.openBrace], "[", "("] && !existing.contains name

/-- The property that a trimmed line gives, if it gives one. -/
def ofLine (existing : List Text) (line : Text) : Option Text :=
  if line.isEmpty || Text.startsWithAny line ["/", [Text.openBrace], [Text.closeBrace]] then none
  else if occursIn declaration line || occursIn assignmentOpen line then none
  else
    match split (bareKeys line) with
    | none => none
    | some (name, value) =>
      if isAdmissible existing name value then some (name ++ ": " ++ value ++ ",") else none

/-- The first property with a new name, or nothing. -/
def extract (text : Text) (existing : List Text) : Text :=
  ((Text.lines (unwrap text)).findSome? fun line =>
    ofLine existing (Text.trim (Scan.dropComment line))).getD []

end InlineCompletion.ReplyProperty
