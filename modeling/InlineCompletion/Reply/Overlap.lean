import InlineCompletion.Context.Classification
import InlineCompletion.Text.Pattern

/-!
The part of a completion that is already typed, and what remains to insert.
-/

namespace InlineCompletion.Overlap

open Text

/-- Whether a tail that begins with `c` after `previous` cuts no word and begins with no blank. -/
def isBoundary (previous : Option Char) (c : Char) : Bool :=
  !isBlank c && !(isNameChar c && previous.any isNameChar)

/-- The tails of the text that begin at a token, the longest first. -/
def tokenTails : Option Char → Text → List Text
  | _, [] => []
  | previous, c :: rest =>
    if isBoundary previous c then (c :: rest) :: tokenTails (some c) rest
    else tokenTails (some c) rest

/-- What follows the tail in the body; a tail that ends in white space may lack it there. -/
def dropEcho (body tail : Text) : Option Text :=
  if startsWith body tail then some (body.drop tail.length)
  else
    let core := trimRight tail
    if core ≠ tail && startsWith body core then
      some ((body.drop core.length).dropWhile fun c => c = ' ' || c = '\t')
    else none

/-- The completion without the longest tail of the typed text that it begins with. -/
def remove (completion typed : Text) : Text :=
  if allBlank typed then completion
  else ((tokenTails none typed).findSome? (dropEcho (trimLeft completion))).getD completion

open Pattern in
def leadingDeclaration : Pattern Unit := do
  atStart
  blanks
  oneOfWords ["const", "let", "var"]
  someBlanks
  many1 isWordChar
  blanks
  literal "="
  blanks
  optional (char (· = openBrace))
  blanks

def someUnlessBlank (text : Text) : Option Text :=
  if allBlank text then none else some text

/-- In an object a property goes on a line of its own behind a comma or a brace. -/
def uniqueProperty (completion typed : Text) : Option Text :=
  let cleaned := trim (Pattern.eraseAll leadingDeclaration completion)
  if cleaned.isEmpty then none
  else if endsWith (trim typed) "," then some ('\n' :: indentation typed ++ cleaned)
  else if endsWith (trim typed) [openBrace] then
    some ('\n' :: indentation typed ++ "  " ++ cleaned)
  else someUnlessBlank (remove cleaned typed)

/-- The part of the completion to insert, if there is any. -/
def unique (completion typed : Text) (facts : Classification) : Option Text :=
  if allBlank completion then none
  else if facts.inLogCall || facts.inStringLiteral then some completion
  else if facts.inObjectLiteral then uniqueProperty completion typed
  else someUnlessBlank (remove completion typed)

end InlineCompletion.Overlap
