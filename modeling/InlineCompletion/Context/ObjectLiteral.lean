import InlineCompletion.Scan.Bracket
import InlineCompletion.Text.Pattern

/-!
Whether the cursor stands in an object literal: the text before the innermost open brace ends with
a token that an object can follow. Case labels open blocks; a bare `default:` may also be a key, and
then the enclosing brace decides.
-/

namespace InlineCompletion.ObjectLiteral

open Text

/-- The tokens before a brace that make it an object literal. -/
def introducers : List Text :=
  ["=", ":", "(", ",", "[", "?", "||", "&&", "??", "return"]

open Pattern in
/-- An optional closing brace, a label and a colon that ends the text. -/
def labelPattern (label : Pattern Unit) : Pattern Unit := do
  blanks
  optional do
    char (· = closeBrace)
    blanks
  label
  blanks
  literal ":"
  atEnd

open Pattern in
def caseLabel : Pattern Unit := do
  literal "case"
  someBlanks
  char fun c => !isBlank c
  many inLine

def isBareDefault (text : Text) : Bool :=
  Pattern.matchesStart (labelPattern (Pattern.literal "default")) text

def isCaseLabel (text : Text) : Bool :=
  Pattern.matchesStart (labelPattern (Pattern.orElse caseLabel (Pattern.literal "default"))) text

/-- The text in front of a brace: on its line, else the nearest line above that is not blank. -/
def introduction (window : List Text) (index column : Nat) : Text :=
  let here := trimRight ((window.getD index []).take column)
  if here.isEmpty then Scan.nearestNonBlank (window.take index).reverse else here

/-- The window up to a bare `default:` label, without its colon. -/
def beforeLabel (window : List Text) (index column : Nat) : List Text :=
  window.take index ++ [(trimRight ((window.getD index []).take column)).dropLast]

/-- Every step outwards drops at least the brace it has looked at, so the number of characters in
the window bounds the steps. -/
def decideWithin : Nat → List Text → Bool
  | 0, _ => false
  | fuel + 1, window =>
    match Scan.unmatchedBrace window with
    | none => false
    | some (index, column) =>
      let text := introduction window index column
      if text.isEmpty then false
      else if isCaseLabel text then
        isBareDefault text && decideWithin fuel (beforeLabel window index column)
      else endsWithAny text introducers

def isOpen (window : List Text) : Bool :=
  decideWithin (window.flatten.length + 1) window

end InlineCompletion.ObjectLiteral
