import InlineCompletion.Document.Basic
import InlineCompletion.Scan.Bracket
import InlineCompletion.Symbol.Variable
import InlineCompletion.Text.Pattern

/-!
The properties of the object literal around the cursor, and the variable that holds it.
-/

namespace InlineCompletion.Property

open Pattern

def quoteMark : Pattern Unit :=
  optional (char fun c => c = Text.doubleQuote || c = Text.singleQuote)

/-- A key at the start of the text or after a brace or comma, with a single colon. -/
def key : Pattern (Cursor × Cursor) := do
  orElse atStart (char fun c => c = Text.openBrace || c = ',')
  blanks
  quoteMark
  let word ← captured name
  quoteMark
  blanks
  literal ":"
  notAhead (literal ":")
  pure word

/-- The keys after an open brace, line by line. -/
def keysAfter (window : List Text) (index column : Nat) : List Text :=
  match window.drop index with
  | [] => []
  | line :: below => (line.drop (column + 1) :: below).flatMap (Variable.captures key)

/-- The keys written between the enclosing brace and the cursor, each once. -/
def existing (document : Document) (position : Position) (window : Int) : List Text :=
  let lines := document.linesAbove position window
  match Scan.unmatchedBrace lines with
  | none => []
  | some (index, column) => firstOccurrences (keysAfter lines index column)

/-- The variable assigned left of the cursor, else the one assigned before the enclosing brace. -/
def ownerName (document : Document) (position : Position) (window : Int) : Text :=
  match Variable.assignedName (document.before position) with
  | some (c :: rest) => c :: rest
  | _ =>
    let lines := document.linesAbove position window
    match Scan.unmatchedBrace lines with
    | none => []
    | some (index, column) =>
      (Variable.assignedName ((lines.getD index []).take column)).getD []

end InlineCompletion.Property
