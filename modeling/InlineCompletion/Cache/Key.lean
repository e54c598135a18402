import InlineCompletion.Cache.Basic
import InlineCompletion.Context.Classify
import InlineCompletion.Symbol.Property
import InlineCompletion.Symbol.Variable

/-!
The key under which a completion is kept: everything around the cursor that decides what is
suggested. Texts of any length enter it by a digest, which is a parameter.
-/

namespace InlineCompletion.CacheKey

def defaultWindow : Int := 10

/-- How much of the typed line the fingerprint of the cursor covers. -/
def nearbyLength : Nat := 16

def volatileFailure : Failure := ⟨.value, "Cache keys are not derived for volatile contexts"⟩

structure Parts where
  contextHash : Text
  /-- Empty when the line assigns nothing. -/
  variableName : Text
  inObjectLiteral : Bool
  position : Position
  existing : List Text
  fingerprint : Text
  deriving DecidableEq, Repr

def Parts.pieces (parts : Parts) : List Text :=
  [parts.contextHash, parts.variableName, if parts.inObjectLiteral then "true" else "false",
    Text.ofInt parts.position.line, Text.ofInt parts.position.character,
    Text.join "," parts.existing, parts.fingerprint]

def Parts.text (parts : Parts) : Text :=
  Text.join ":" parts.pieces

variable (digest : Text → Text) (document : Document) (position : Position)

/-- The lines above the cursor and the cursor line left of it. -/
def contextHash (window : Int) : Text :=
  (digest (Text.unlines (document.linesAbove position window))).take 16

/-- The character at the raw column; a column left of the line counts from its end. -/
def following : Text :=
  Text.slice (document.lineAt position.line) position.character (position.character + 1)

/-- The end of the typed text and the character after the cursor. -/
def neighbourhood : Text :=
  let typed := document.before position
  typed.drop (typed.length - nearbyLength) ++ '\x00' :: following document position

def fingerprint : Text :=
  (digest (neighbourhood document position)).take 8

def parts (facts : Classification) (window : Int) : Parts where
  contextHash := contextHash digest document position window
  variableName := (Variable.assignedName (document.before position)).getD []
  inObjectLiteral := facts.inObjectLiteral
  position
  existing := Property.existing document position defaultScanWindow
  fingerprint := fingerprint digest document position

/-- The key of a place whose suggestions may be kept. -/
def derive (facts : Classification) (window : Int) : Except Failure Text :=
  if facts.isVolatile then .error volatileFailure
  else .ok (parts digest document position facts window).text

end InlineCompletion.CacheKey
