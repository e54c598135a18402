import InlineCompletion.Scan.Literal
import InlineCompletion.Text.Pattern

/-!
What models put around the text they were asked for: quotes, and phrases that announce it.
-/

namespace InlineCompletion.Wrapping

open Pattern

/-- Ends with a quote or not at all. -/
def endsInQuote (text : Text) : Bool :=
  text.getLast?.all Text.isQuote

def dropFirstQuote (text : Text) : Text :=
  if text.head?.all Text.isQuote then text.drop 1 else text

def dropLastQuote (text : Text) : Text :=
  if endsInQuote text then text.dropLast else text

/-- The trimmed text without a quote at its start and without one at its end. -/
def stripQuotes (text : Text) : Text :=
  dropLastQuote (dropFirstQuote (Text.trim text))

/-- Everything on the first line up to and with the given phrase. -/
def announcement (phrase : Pattern Unit) : Pattern Unit := do
  atStart
  fewest inLine
  phrase

def colon : Pattern Unit := do
  blanks
  literal ":"
  blanks

def perhapsColon : Pattern Unit := do
  blanks
  optional (literal ":")
  blanks

def suggestedMessage : Pattern Unit :=
  announcement do
    anyCase "suggested message"
    perhapsColon

def suggestedArgument : Pattern Unit :=
  announcement do
    anyCase "suggested argument"
    perhapsColon

def suggestedCode : Pattern Unit :=
  announcement do
    anyCase "suggested code"
    colon

/-- The phrases that announce a string, in the order in which they are removed. -/
def stringAnnouncements : List (Pattern Unit) :=
  [announcement do
    anyCase "suggested "
    choice [anyCase "completion", anyCase "string", anyCase "message"]
    colon,
  announcement do
    wordEdge
    anyCase "example"
    colon,
  announcement do
    anyCase "here"
    optional (char (· = Text.singleQuote))
    anyCase "s a"
    optional (anyCase "n")
    wordEdge
    perhapsColon,
  announcement do
    anyCase "you could use"
    wordEdge
    perhapsColon]

end InlineCompletion.Wrapping
