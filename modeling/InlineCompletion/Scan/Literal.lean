import InlineCompletion.Text.Basic

/-!
String literals in a line of code. A backslash escapes the next character inside and outside of
literals; a literal that is not closed runs to the end of the text.
-/

namespace InlineCompletion.Scan

open Text

/-- Marks the characters of string literals, quotes included. -/
def literalMask (text : Text) : List Bool :=
  go none false text
where
  go : Option Char → Bool → Text → List Bool
    | _, _, [] => []
    | some quote, escaped, c :: rest =>
      if escaped then true :: go (some quote) false rest
      else if c = backslash then true :: go (some quote) true rest
      else if c = quote then true :: go none false rest
      else true :: go (some quote) false rest
    | none, escaped, c :: rest =>
      if escaped then false :: go none false rest
      else if c = backslash then false :: go none true rest
      else if isQuote c then true :: go (some c) false rest
      else false :: go none false rest

theorem length_literalMask_go (quote : Option Char) (escaped : Bool) (text : Text) :
    (literalMask.go quote escaped text).length = text.length := by
  induction text generalizing quote escaped with
  | nil => cases quote <;> simp [literalMask.go]
  | cons c rest ih =>
    cases quote with
    | none => simp only [literalMask.go]; split <;> (try split) <;> (try split) <;> simp [ih]
    | some q => simp only [literalMask.go]; split <;> (try split) <;> (try split) <;> simp [ih]

/-- Every character has its mark. -/
theorem length_literalMask (text : Text) : (literalMask text).length = text.length :=
  length_literalMask_go none false text

/-- The quote of the literal that is open at the end of the text. -/
def openQuote (text : Text) : Option Char :=
  go none false text
where
  go (quote : Option Char) (escaped : Bool) : Text → Option Char
    | [] => quote
    | c :: rest =>
      if escaped then go quote false rest
      else if c = backslash then go quote true rest
      else
        match quote with
        | some q => go (if c = q then none else some q) false rest
        | none => go (if isQuote c then some c else none) false rest

/-- The text with a space in the place of every character of a literal. -/
def blankLiterals (text : Text) : Text :=
  List.zipWith (fun c masked => if masked then ' ' else c) text (literalMask text)

/-- How a search outside of literals ends. The empty text also occurs at the very end, where
no character is left to tell a literal from code. -/
inductive Finding where
  | at (index : Nat)
  | absent
  | pastEnd
  deriving DecidableEq, Repr

def findFrom (token : Text) : Text → List Bool → Nat → Finding
  | [], _, _ => if token.isEmpty then .pastEnd else .absent
  | c :: rest, mask, index =>
    if startsWith (c :: rest) token && !mask.headD false then .at index
    else findFrom token rest mask.tail (index + 1)

/-- The first occurrence at or after `start` whose first character is outside of literals. A
negative start counts from the end. -/
def findOutside (text token : Text) (start : Int) : Finding :=
  let first := if start < 0 then (start + text.length).toNat else start.toNat
  if text.length < first then .absent
  else findFrom token (text.drop first) ((literalMask text).drop first) first

inductive ScanError where
  | indexOutOfRange
  deriving DecidableEq, Repr

def ScanError.message : ScanError → Text
  | .indexOutOfRange => "list index out of range"

/-- The text before the first comment leader outside of literals. -/
def cutComment (leader text : Text) : Except ScanError Text :=
  match findOutside text leader 0 with
  | .at index => .ok (text.take index)
  | .absent => .ok text
  | .pastEnd => .error .indexOutOfRange

/-- The text before its line comment. -/
def dropComment (text : Text) : Text :=
  match findOutside text "//" 0 with
  | .at index => text.take index
  | _ => text

end InlineCompletion.Scan
