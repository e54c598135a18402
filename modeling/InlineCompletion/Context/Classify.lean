import InlineCompletion.Context.Call
import InlineCompletion.Context.Classification
import InlineCompletion.Context.Header
import InlineCompletion.Context.ObjectLiteral
import InlineCompletion.Document.Basic
import InlineCompletion.Scan.Literal
import InlineCompletion.Text.Character

/-!
The classification of a place in a document. Object literals and log calls are looked for in a
window of lines, everything else in the cursor line left of the cursor.
-/

namespace InlineCompletion.Comment

open Text

/-!
Comments by language: which tokens begin one, and whether the cursor stands in one.
-/

def hashLanguages : List Text :=
  ["python", "ruby", "shellscript", "perl", "r", "yaml", "toml", "dockerfile", "makefile",
    "powershell", "coffeescript", "elixir"]

def dashLanguages : List Text := ["sql", "lua", "haskell"]

def markupLanguages : List Text := ["html", "xml", "markdown", "vue", "svelte"]

def leaders (language : Text) : List Text :=
  if hashLanguages.contains language then ["#"]
  else if dashLanguages.contains language then ["--"]
  else if markupLanguages.contains language then ["<!--"]
  else ["//", "/*"]

/-- The languages whose block comments run from a slash and a star to a star and a slash. -/
def hasStarBlocks (language : Text) : Bool :=
  !(hashLanguages ++ dashLanguages ++ markupLanguages).contains language

/-- A line that goes on with a block comment begins with a star. -/
def continuesBlock (line : Text) : Bool :=
  line = "*" || startsWith line "* " || startsWith line "*/"

def holdsLeader (typed leader : Text) : Bool :=
  startsWith (trimLeft typed) leader || Scan.findOutside typed leader 0 ≠ .absent

def isComment (typed language : Text) : Bool :=
  (hasStarBlocks language && continuesBlock (trimLeft typed)) ||
    (leaders language).any (holdsLeader typed)

end InlineCompletion.Comment

namespace InlineCompletion

def defaultScanWindow : Int := 50

def classify (document : Document) (position : Position) (window : Int) : Classification :=
  let lines := document.linesAbove position window
  let typed := document.before position
  { inObjectLiteral := ObjectLiteral.isOpen lines
    inLogCall := Call.isLogCall lines
    inStringLiteral := (Scan.openQuote typed).isSome
    inFunctionHeader := Header.isFunction typed
    inClassHeader := Header.isClass typed
    inImport := Header.isImport typed
    inComment := Comment.isComment typed document.language
    inControlHeader := Header.isControl typed
    category := .ofExtension document.extension }

end InlineCompletion
