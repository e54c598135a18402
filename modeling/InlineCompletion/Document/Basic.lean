import InlineCompletion.Document.Path
import InlineCompletion.Text.Letter

/-!
The document being edited and a place in it. Reads are total: a line that does not exist is empty,
and a column left of the line counts as its start.
-/

namespace InlineCompletion

/-- Zero-based coordinates of the cursor. -/
structure Position where
  line : Int
  character : Int
  deriving DecidableEq, Repr

/-- The language named after each known file extension. -/
def languageByExtension : List (Text × Text) :=
  [("py", "python"), ("js", "javascript"), ("jsx", "javascriptreact"), ("ts", "typescript"),
    ("tsx", "typescriptreact"), ("go", "go"), ("rs", "rust"), ("java", "java"), ("rb", "ruby"),
    ("c", "c"), ("h", "c"), ("cpp", "cpp"), ("cs", "csharp"), ("php", "php"),
    ("sh", "shellscript"), ("lua", "lua"), ("md", "markdown"), ("html", "html"),
    ("htm", "html"), ("css", "css"), ("scss", "scss"), ("json", "json"), ("sql", "sql"),
    ("yaml", "yaml"), ("yml", "yaml")]

structure Document where
  lines : List Text
  fileName : Text
  /-- Lower case, without the dot. -/
  extension : Text
  language : Text
  deriving DecidableEq, Repr

namespace Document

/-- The language is the given one unless that is missing or empty. -/
def ofText (text fileName : Text) (language : Option Text) : Document :=
  let extension := Text.lower ((Path.ofText fileName).extension.getD [])
  { lines := Text.lines text
    fileName
    extension
    language :=
      match language with
      | some (c :: rest) => c :: rest
      | _ => (languageByExtension.lookup extension).getD "plaintext" }

variable (document : Document)

def lineCount : Nat :=
  document.lines.length

def lineAt (line : Int) : Text :=
  if line < 0 then [] else (document.lines[line.toNat]?).getD []

/-- The cursor line left of the cursor. -/
def before (position : Position) : Text :=
  (document.lineAt position.line).take position.character.toNat

/-- The cursor line right of the cursor. -/
def after (position : Position) : Text :=
  (document.lineAt position.line).drop position.character.toNat

theorem before_append_after (position : Position) :
    document.before position ++ document.after position = document.lineAt position.line :=
  List.take_append_drop _ _

def fullText : Text :=
  Text.unlines document.lines

/-- The lines from `first` up to but not including `last`. -/
def linesBetween (first last : Int) : List Text :=
  (List.range (last - first).toNat).map fun (offset : Nat) => document.lineAt (first + offset)

/-- At most `window` lines above the cursor, then the cursor line left of the cursor. -/
def linesAbove (position : Position) (window : Int) : List Text :=
  document.linesBetween (max 0 (position.line - window)) position.line ++
    [document.before position]

theorem linesAbove_ne_nil (position : Position) (window : Int) :
    document.linesAbove position window ≠ [] := by
  simp [linesAbove]

end Document

inductive MarkerError where
  | absent
  deriving DecidableEq, Repr

def MarkerError.message : MarkerError → Text
  | .absent => "substring not found"

/-- The coordinates of the place after `before`. -/
def Position.after (before : Text) : Position where
  line := before.count '\n'
  character := (before.reverse.takeWhile (· ≠ '\n')).length

/-- A document and the cursor where the first marker stood, which is taken out. -/
def Document.ofMarked (text fileName marker : Text) (language : Option Text) :
    Except MarkerError (Document × Position) :=
  match Text.indexOf? marker text with
  | none => .error .absent
  | some index =>
    .ok (.ofText (text.take index ++ text.drop (index + marker.length)) fileName language,
      .after (text.take index))

/-!
The excerpt of a document that a prompt quotes, with the cursor marked.
-/

def cursorMarker : Text := "<CURSOR>"

/-- The lines around the cursor. The cursor line is cut at the raw column, so a negative column
counts from the end of the line. -/
def Document.excerpt (document : Document) (position : Position) (above below : Int) : Text :=
  let current := document.lineAt position.line
  Text.unlines
    (document.linesBetween (max 0 (position.line - above)) position.line ++
      [Text.sliceTo current position.character ++ cursorMarker ++
        Text.sliceFrom current position.character] ++
      document.linesBetween (position.line + 1)
        (min document.lineCount (position.line + below + 1)))

end InlineCompletion
