import InlineCompletion.Document.Basic
import InlineCompletion.Text.Pattern

/-!
What a function is for, read off the comment above it or off its name.
-/

namespace InlineCompletion.Purpose

open Pattern

def isCommentLine (line : Text) : Bool :=
  Text.startsWithAny (Text.trim line) ["//", "#", "/*", "*", "--"]

/-- A comment leader at the start of the text and the white space after it. -/
def leader : Pattern Unit := do
  atStart
  choice
    [literal "<!--",
    do literal "/*"; many (· = '*'),
    do many1 (· = '*'); optional (literal "/"),
    do literal "//"; many (· = '/'),
    many1 (· = '#'),
    literal "--"]
  blanks

def closer : Pattern Unit := do
  blanks
  oneOfWords ["*/", "-->"]
  atEnd

/-- The body of a comment without its leader and closer. -/
def commentBody (line : Text) : Text :=
  Text.trim (eraseAll closer (eraseAll leader (Text.trim line)))

def maxComments : Nat := 5

/-- Bodies of the comment lines directly above line `line`, the nearest first; empty ones are not
counted. -/
def commentsAbove (document : Document) : Nat → Nat → List Text
  | 0, _ => []
  | _, 0 => []
  | line + 1, room + 1 =>
    let text := document.lineAt line
    if !isCommentLine text then []
    else
      match commentBody text with
      | [] => commentsAbove document line (room + 1)
      | body => body :: commentsAbove document line room

/-- A space where a lower-case letter or digit meets a capital. -/
def separateWords : Text → Text
  | a :: b :: rest =>
    if (a.isLower || a.isDigit) && b.isUpper then a :: ' ' :: separateWords (b :: rest)
    else a :: separateWords (b :: rest)
  | short => short

/-- The words of an identifier in lower case. -/
def splitIdentifier (identifier : Text) : Text :=
  let spaced := separateWords (identifier.map fun c => if c = '_' then ' ' else c)
  Text.join " " (Text.words (Text.lower spaced))

def ofFunction (document : Document) (position : Position) (function : Text) : Text :=
  match (commentsAbove document position.line.toNat maxComments).reverse with
  | [] => if function.isEmpty then "unknown" else splitIdentifier function
  | comments => Text.join " " comments

end InlineCompletion.Purpose
