import InlineCompletion.Context.Classify
import InlineCompletion.Document.Basic
import InlineCompletion.Prompt.Basic
import InlineCompletion.Prompt.Guess
import InlineCompletion.Symbol.Hint
import InlineCompletion.Symbol.Import
import InlineCompletion.Symbol.Property
import InlineCompletion.Symbol.Purpose

/-!
The prompt for a place in a document. Several facts can hold of one place, so the kind is the first
that applies in a fixed order: conventions of the file, comment, import, headers, log call, string,
object property, and the generic kind at the end.
-/

namespace InlineCompletion

/-- All that a prompt may take into account. -/
structure Place where
  classification : Classification
  document : Document
  position : Position
  excerpt : Text

namespace Place

open Pattern

variable (place : Place)

def line : Text :=
  place.document.lineAt place.position.line

def typed : Text :=
  place.document.before place.position

def language : Text :=
  place.document.language

def indentation : Text :=
  Text.indentation place.typed

/-- The lines above the cursor in the default window. -/
def window : List Text :=
  place.document.linesAbove place.position defaultScanWindow

/-- Whether a property may begin here: on a blank line or behind a brace just opened. -/
def isPropertySlot : Bool :=
  let content := Text.trim place.typed
  if content.isEmpty then true
  else
    let next := Text.trim (place.document.lineAt (place.position.line + 1))
    (Text.endsWith content [Text.openBrace] ||
      Text.contains content ("= " ++ [Text.openBrace])) &&
      (next.isEmpty || next = [Text.closeBrace] || next = [Text.closeBrace, ';'])

def isMarkdown : Bool :=
  FileCategory.isMarkdown place.document.extension

/-- The first kind that applies. -/
def kind : PromptKind :=
  let facts := place.classification
  match facts.category with
  | .markup => if place.isMarkdown then .markdown else .html
  | .stylesheet => .stylesheet
  | .structuredData => .structuredData
  | .query => .query
  | .none =>
    if facts.inComment then .comment
    else if facts.inImport then .imports
    else if facts.inFunctionHeader then .function
    else if facts.inClassHeader then .classHeader
    else if facts.inControlHeader then .control
    else if facts.inLogCall then .logCall
    else if facts.inStringLiteral then .stringLiteral
    else if facts.inObjectLiteral && place.isPropertySlot then .objectProperty
    else .generic

def tableRow : Pattern Unit := do
  blanks
  literal "|"
  many inLine
  literal "|"
  blanks
  atEnd

def atMostSix (p : Char → Bool) : Pattern Unit := do
  char p
  repeated (char p) 5

def headingMark : Pattern Unit := do
  blanks
  atMostSix (· = '#')
  char Text.isBlank

def listMark : Pattern Unit := do
  blanks
  orElse (oneOf "-*+") do
    many1 Text.isDigit
    literal "."
  char Text.isBlank

def markdownElement : MarkdownElement :=
  let typed := place.typed
  if matchesStart tableRow typed then .table
  else if Text.contains typed [Text.backtick, Text.backtick, Text.backtick] then .codeBlock
  else if matchesStart headingMark typed then .heading
  else if matchesStart listMark typed then .listItem
  else .general

def isPlainOrDash (c : Char) : Bool :=
  Text.isWordChar c || c = '-'

def isStraightQuote (c : Char) : Bool :=
  c = Text.singleQuote || c = Text.doubleQuote

def openAttribute : Pattern Unit := do
  char Text.isBlank
  many1 isPlainOrDash
  literal "="
  optional do
    char isStraightQuote
    many fun c => !isStraightQuote c
  atEnd

def openTag : Pattern Unit := do
  literal "<"
  many (· ≠ '>')
  atEnd

def html : Instruction :=
  if occursIn openAttribute place.typed then .htmlAttribute
  else if occursIn openTag place.typed then .htmlTag
  else .htmlContent

/-- Opened less closed braces of a line, literals not counted. -/
def braceBalance (line : Text) : Int :=
  let code := Scan.blankLiterals line
  code.count Text.openBrace - code.count Text.closeBrace

def insideBlock : Bool :=
  0 < place.window.foldl (fun balance line => balance + braceBalance line) 0

def cssDeclaration : Pattern (Cursor × Cursor) := do
  blanks
  let property ← captured (many1 isPlainOrDash)
  blanks
  literal ":"
  blanks
  many (· ≠ ';')
  atEnd
  pure property

def stylesheet : Instruction :=
  if place.insideBlock then
    match matchStart cssDeclaration place.typed with
    | some found => .cssProperty (found.value.1.between found.value.2)
    | none => .cssRule
  else .cssSelector

def schema : JsonSchema :=
  let path :=
    Text.lower (place.document.fileName.map fun c => if c = Text.backslash then '/' else c)
  if Text.endsWith path "package.json" then .package
  else if Text.endsWith path "tsconfig.json" then .compilerOptions
  else if Text.endsWith path ".vscode/settings.json" then .editorSettings
  else .general

/-- Statements by growing precedence. -/
def statements : List SqlStatement :=
  [.select, .insert, .update, .delete, .createTable, .alterTable]

def statement : SqlStatement :=
  let typed := Text.upper place.typed
  statements.foldl (fun chosen s => if Text.contains typed s.text then s else chosen) .general

def functionName : Text :=
  let keyword : Pattern (Cursor × Cursor) := do
    choice
      [do literal "function"; optional (literal "*"), literal "def", literal "func", literal "fn"]
    someBlanks
    captured (many1 Text.isWordChar)
  let declared : Pattern (Cursor × Cursor) := do
    Variable.declarators
    someBlanks
    captured (many1 Text.isWordChar)
  ((Variable.captureIn keyword place.typed).or
    (Variable.captureIn declared place.typed)).getD []

def className : Text :=
  let header : Pattern (Cursor × Cursor) := do
    oneOfWords ["class", "interface"]
    someBlanks
    captured (many1 Text.isWordChar)
  (Variable.captureIn header place.line).getD []

def logCall : Instruction :=
  if place.classification.inStringLiteral then .logMessage
  else .logArguments (Variable.inScope place.document place.position defaultScanWindow)

def stringTopic : StringTopic :=
  let variableName :=
    (Variable.captureIn Variable.declaration place.line).or (Variable.assignedName place.typed)
  match StringPurpose.guess place.line variableName with
  | some purpose => .purpose purpose
  | none =>
    match variableName with
    | some name => .forVariable name
    | none => .unknown

/-- Asks for one property that the object does not have yet. -/
def objectProperty : Instruction :=
  let owner := Property.ownerName place.document place.position defaultScanWindow
  let existing := Property.existing place.document place.position defaultScanWindow
  let indent :=
    if Text.allBlank place.typed then place.indentation else place.indentation ++ "  "
  .property owner existing indent
    ((Candidates.ofVariable owner).filter fun candidate => !existing.contains candidate)

def generic : Instruction :=
  .generic place.language
    (Hint.language place.language place.typed place.classification.inObjectLiteral)
    (Hint.framework place.excerpt)
    place.indentation.length

def instruct : PromptKind → Instruction
  | .markdown => .markdown place.markdownElement
  | .html => place.html
  | .stylesheet => place.stylesheet
  | .structuredData => .json place.schema
  | .query => .sql place.statement
  | .comment => .comment place.language (Purpose.commentBody place.line)
  | .imports => .imports place.language (Import.candidates place.document.fullText)
  | .function =>
    .function place.language place.functionName
      (Purpose.ofFunction place.document place.position place.functionName)
  | .classHeader => .classBody place.language place.className
  | .control => .control place.language (Header.controlName place.line)
  | .logCall => place.logCall
  | .stringLiteral => .stringLiteral place.stringTopic
  | .objectProperty => place.objectProperty
  | .generic => place.generic

def prompt : Prompt where
  kind := place.kind
  instruction := place.instruct place.kind
  excerpt := place.excerpt

end Place

end InlineCompletion
