import InlineCompletion.Context.Classification
import InlineCompletion.Reply.Fence
import InlineCompletion.Reply.Property
import InlineCompletion.Reply.Reasoning
import InlineCompletion.Reply.Wrapping

/-!
The raw text of a model made into one completion for the place it was asked for. Nothing left means
that there is no usable completion.
-/

namespace InlineCompletion.Reply

open Wrapping

def cleanLogMessage (text : Text) : Text :=
  Text.trim (stripQuotes (Pattern.eraseFirst suggestedMessage (stripQuotes text)))

def dropOuterParens (text : Text) : Text :=
  if Text.startsWith text "(" && Text.endsWith text ")" then
    Text.trim ((text.drop 1).dropLast)
  else text

/-- Drops closing parentheses from the end while there are more of them than opening ones. -/
def dropSurplusParens (text : Text) : Text :=
  go text.length text
where
  go : Nat → Text → Text
    | 0, text => text
    | fuel + 1, text =>
      if Text.endsWith text ")" && text.count '(' < text.count ')' then
        go fuel (Text.trimRight text.dropLast)
      else text

/-- Adds the quote that is missing when the text starts with the literal it leaves open. -/
def closeLeadingQuote (text : Text) : Text :=
  match Scan.openQuote text with
  | none => text
  | some quote => if Text.startsWith text [quote] then text ++ [quote] else text

def cleanLogArguments (text : Text) : Text :=
  let text := Text.trim (Pattern.eraseFirst suggestedArgument (Text.trim text))
  let text := Text.trimRight (Text.dropTrailing (· = ';') text)
  Text.trim (closeLeadingQuote (dropSurplusParens (dropOuterParens text)))

/-- A quote at the end is dropped when the line already ends with one, or is empty. -/
def cleanStringLiteral (text typed : Text) : Text :=
  let text := stringAnnouncements.foldl (fun text phrase => Pattern.eraseFirst phrase text)
    (stripQuotes text)
  let text := stripQuotes text
  Text.trim (if endsInQuote typed then dropLastQuote text else text)

def cleanCode (text : Text) : Text :=
  Text.trim (Pattern.eraseFirst suggestedCode text)

/-- The cleaning that fits the place. -/
def cleanFor (facts : Classification) (typed : Text) (existing : List Text) (text : Text) : Text :=
  if facts.inLogCall then
    if facts.inStringLiteral then cleanLogMessage text else cleanLogArguments text
  else if facts.inStringLiteral then cleanStringLiteral text typed
  else if facts.inObjectLiteral then ReplyProperty.extract text existing
  else cleanCode text

/-- Markup keeps its code fences. -/
def unwrap (facts : Classification) (raw : Text) : Text :=
  let text := Reasoning.strip raw
  if facts.category = .markup then text else Fence.extract text

def clean (raw : Text) (facts : Classification) (typed : Text) (existing : List Text) : Text :=
  if Text.allBlank raw then []
  else
    let cleaned := cleanFor facts typed existing (unwrap facts raw)
    if Text.allBlank cleaned then [] else cleaned

end InlineCompletion.Reply
