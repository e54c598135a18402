import InlineCompletion.Text.Pattern

/-!
Lines that begin a function, a class, an import or a control structure, recognised by how the text
left of the cursor starts.
-/

namespace InlineCompletion.Header

open Pattern

def declarators : List Text := ["const", "let", "var"]

def functionKeyword : Pattern Unit := do
  blanks
  modifier "export"
  modifier "default"
  optional do
    literal "pub"
    optional do
      literal "("
      many1 fun c => Text.isWordChar c || c = ':'
      literal ")"
    someBlanks
  modifier "async"
  choice
    [do literal "function"; optional (literal "*"), literal "def", literal "func", literal "fn"]
  wordEdge

def arrowFunction : Pattern Unit := do
  blanks
  modifier "export"
  oneOfWords declarators
  someBlanks
  many1 Text.isWordChar
  blanks
  literal "="
  blanks
  modifier "async"
  choice [do literal "("; many (· ≠ ')'); literal ")", many1 Text.isWordChar]
  blanks
  literal "=>"

def isFunction (typed : Text) : Bool :=
  matchesStart functionKeyword typed || matchesStart arrowFunction typed

def classKeyword : Pattern Unit := do
  blanks
  modifier "export"
  modifier "default"
  modifier "abstract"
  choice [do literal "public"; someBlanks, do literal "final"; someBlanks, pure ()]
  oneOfWords ["class", "interface"]
  wordEdge

def isClass (typed : Text) : Bool :=
  matchesStart classKeyword typed

def importStatements : List (Pattern Unit) :=
  [do
    blanks
    literal "import"
    wordEdge,
  do
    blanks
    literal "from"
    someBlanks
    many1 fun c => Text.isWordChar c || c = '.'
    blanks
    orElse (do literal "import"; wordEdge) atEnd,
  do
    blanks
    oneOfWords declarators
    someBlanks
    many1 inLine
    literal "="
    blanks
    literal "require(",
  do
    blanks
    literal "#"
    blanks
    literal "include"
    wordEdge,
  do
    blanks
    literal "use"
    someBlanks
    many1 fun c => Text.isWordChar c || c = ':']

def isImport (typed : Text) : Bool :=
  importStatements.any fun statement => matchesStart statement typed

/-- An `else if`, however wide the space between its words. -/
def elseIf : Pattern Unit := do
  literal "else"
  someBlanks
  literal "if"

/-- Control keywords; a longer one stands before those it starts with. -/
def controlKeyword : Pattern Unit := do
  choice [elseIf, oneOfWords ["elif", "else", "if", "foreach", "for", "while", "do", "switch",
    "case", "try", "catch", "except", "finally", "with", "match", "unless", "until", "loop"]]
  wordEdge

def afterClosedBlock : Pattern Unit := do
  blanks
  optional do
    char (· = Text.closeBrace)
    blanks

/-- What shows that a keyword is used as the name of a variable. -/
def usedAsVariable : Pattern Unit := do
  blanks
  choice
    [do
      optional (oneOf "-+*/%&|^")
      literal "="
      notAhead (literal "="),
    literal ".",
    literal ":="]

def controlHeader : Pattern Unit := do
  afterClosedBlock
  controlKeyword
  notAhead usedAsVariable

def isControl (typed : Text) : Bool :=
  matchesStart controlHeader typed

/-- The control keyword of a line with single spaces, or `control` where there is none. -/
def controlName (line : Text) : Text :=
  match matchStart (do afterClosedBlock; captured controlKeyword) line with
  | some found => Text.join " " (Text.words (found.value.1.between found.value.2))
  | none => "control"

end InlineCompletion.Header
