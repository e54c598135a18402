import InlineCompletion.Text.Character
import InlineCompletion.Text.Basic

/-!
Files of environment variables: a `KEY=value` on each line, perhaps after `export`. Values may be
quoted and may quote other variables as `${NAME}` or `${NAME:-default}`. A line that does not have
this form is passed over.
-/

namespace InlineCompletion.EnvFile

open Text

/-- White space that stays on the line. -/
def isGap (c : Char) : Bool :=
  isBlank c && c ≠ '\n' && c ≠ '\r'

def skipGap (text : Text) : Text :=
  text.dropWhile isGap

/-- What is left after the line. -/
def skipLine (text : Text) : Text :=
  (text.dropWhile (· ≠ '\n')).drop 1

/-- The text before the first quote that has no backslash before it, and what follows it. -/
def splitAtQuote (quote : Char) : Bool → Text → Option (Text × Text)
  | _, [] => none
  | escaped, c :: rest =>
    if c = quote && !escaped then some ([], rest)
    else (splitAtQuote quote (c = backslash) rest).map fun found => (c :: found.1, found.2)

/-- The text before the last quote, and what follows it. -/
def splitAtLastQuote (quote : Char) : Text → Option (Text × Text)
  | [] => none
  | c :: rest =>
    match splitAtLastQuote quote rest with
    | some found => some (c :: found.1, found.2)
    | none => if c = quote then some ([], rest) else none

/-- The inside of a quoted value and the text after it. A quote behind a backslash closes the value
only when no other one does. -/
def closeQuote (quote : Char) (text : Text) : Option (Text × Text) :=
  (splitAtQuote quote false text).or (splitAtLastQuote quote text)

/-- What a backslash and a letter stand for between double quotes. -/
def doubleQuoteEscape (c : Char) : Option Char :=
  if c = backslash || c = singleQuote || c = doubleQuote then some c
  else if c = 'a' then some '\x07'
  else if c = 'b' then some '\x08'
  else if c = 'f' then some '\x0c'
  else if c = 'n' then some '\n'
  else if c = 'r' then some '\r'
  else if c = 't' then some '\t'
  else if c = 'v' then some '\x0b'
  else none

def singleQuoteEscape (c : Char) : Option Char :=
  if c = backslash || c = singleQuote then some c else none

def unescape (escape : Char → Option Char) : Text → Text
  | [] => []
  | [c] => [c]
  | c :: d :: rest =>
    if c = backslash then
      match escape d with
      | some e => e :: unescape escape rest
      | none => c :: unescape escape (d :: rest)
    else c :: unescape escape (d :: rest)

/-- The text up to white space that a comment follows. -/
def cutComment : Text → Text
  | [] => []
  | c :: rest =>
    if isBlank c && startsWith ((c :: rest).dropWhile isBlank) "#" then []
    else c :: cutComment rest

/-- A value and the text after it. -/
def readValue : Text → Option (Text × Text)
  | [] => some ([], [])
  | c :: rest =>
    if c = singleQuote then
      (closeQuote c rest).map fun found => (unescape singleQuoteEscape found.1, found.2)
    else if c = doubleQuote then
      (closeQuote c rest).map fun found => (unescape doubleQuoteEscape found.1, found.2)
    else
      some (trimRight (cutComment ((c :: rest).takeWhile (· ≠ '\n'))),
        (c :: rest).dropWhile (· ≠ '\n'))

/-- Behind a value only white space and a comment may stand. -/
def readEnd (text : Text) : Option Text :=
  let rest := skipGap text
  let rest := if startsWith rest "#" then rest.dropWhile (· ≠ '\n') else rest
  match rest with
  | [] => some []
  | c :: more => if c = '\n' then some more else none

def skipExport (text : Text) : Text :=
  let rest := text.drop 6
  if startsWith text "export" && rest.head?.any isGap then skipGap rest else text

def isKeyChar (c : Char) : Bool :=
  c ≠ '=' && c ≠ '#' && !isBlank c

/-- The name before the equals sign, perhaps between single quotes; a comment has none. -/
def readKey (text : Text) : Option (Option Text × Text) :=
  match text with
  | [] => none
  | c :: rest =>
    if c = '#' then some (none, text)
    else if c = singleQuote then
      let key := rest.takeWhile (· ≠ singleQuote)
      match rest.dropWhile (· ≠ singleQuote) with
      | [] => none
      | _ :: more => if key.isEmpty then none else some (some key, more)
    else
      let key := text.takeWhile isKeyChar
      if key.isEmpty then none else some (some key, text.dropWhile isKeyChar)

/-- A name and its value; a name alone has none. -/
structure Binding where
  key : Text
  value : Option Text
  deriving DecidableEq, Repr

/-- What follows an equals sign and the gap behind it. -/
def afterEquals (text : Text) : Text :=
  if startsWith text "=" then skipGap (text.drop 1) else text

/-- The binding at the start of the text, if the line is one, and the text after it. -/
def readBinding (text : Text) : Option Binding × Text :=
  let text := skipExport text
  match readKey text with
  | none => (none, skipLine text)
  | some (key, rest) =>
    let rest := skipGap rest
    let valued := startsWith rest "="
    let rest := afterEquals rest
    let found : Option (Option Text × Text) :=
      if valued then (readValue rest).map fun found => (some found.1, found.2)
      else some (none, rest)
    match found with
    | none => (none, skipLine rest)
    | some (value, rest) =>
      match readEnd rest with
      | none => (none, skipLine rest)
      | some rest => (key.map fun key => ⟨key, value⟩, rest)

def readBindings : Nat → Text → List Binding
  | 0, _ => []
  | fuel + 1, text =>
    match text.dropWhile isBlank with
    | [] => []
    | c :: rest =>
      let (binding, rest) := readBinding (c :: rest)
      binding.toList ++ readBindings fuel rest

def bindings (text : Text) : List Binding :=
  let text := normalizeNewlines text
  readBindings text.length text

/-- A variable quoted inside a value: its name, its default and the text after it. -/
def readReference (text : Text) : Option (Text × Text × Text) :=
  let name := text.takeWhile fun c => c ≠ closeBrace && c ≠ ':'
  match text.drop name.length with
  | [] => none
  | c :: rest =>
    if c = closeBrace then some (name, [], rest)
    else if startsWith rest "-" then
      let default := (rest.drop 1).takeWhile (· ≠ closeBrace)
      match rest.drop (default.length + 1) with
      | [] => none
      | _ :: more => some (name, default, more)
    else none

/-- Replaces quoted variables by what is known of them. -/
def expand (lookup : Text → Option (Option Text)) : Nat → Text → Text
  | 0, text => text
  | _ + 1, [] => []
  | fuel + 1, c :: rest =>
    if c = '$' && startsWith rest [openBrace] then
      match readReference (rest.drop 1) with
      | some (name, default, more) =>
        ((lookup name).getD (some default)).getD [] ++ expand lookup fuel more
      | none => c :: expand lookup fuel rest
    else c :: expand lookup fuel rest

/-- Sets a variable and keeps the place it had. -/
def assign (key : Text) (value : Option Text) :
    List (Text × Option Text) → List (Text × Option Text)
  | [] => [(key, value)]
  | (other, old) :: rest =>
    if other = key then (key, value) :: rest else (other, old) :: assign key value rest

/-- The variables of a file in the order of their first line; the last value counts. Names quoted
in values mean earlier lines first and the environment after them. -/
def read (environment : List (Text × Text)) (text : Text) : List (Text × Option Text) :=
  (bindings text).foldl (fun known binding =>
    let lookup (name : Text) : Option (Option Text) :=
      (known.lookup name).or ((environment.lookup name).map some)
    assign binding.key
      (binding.value.map fun value => expand lookup (value.length + 1) value) known) []

end InlineCompletion.EnvFile
