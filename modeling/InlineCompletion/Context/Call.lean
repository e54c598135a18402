import InlineCompletion.Scan.Bracket
import InlineCompletion.Text.Pattern

/-!
The call whose argument list the cursor stands in, and whether it writes to a log.
-/

namespace InlineCompletion.Call

open Text

/-- Puts lines in front of the text until a parenthesis is open in it. A line that ends a statement
or a block ends the search. -/
def openFrom : Text → List Text → Option Text
  | text, above =>
    if (Scan.innermostOpenParen text).isSome then some text
    else go text above
where
  go : Text → List Text → Option Text
    | _, [] => none
    | text, line :: above =>
      let line := trimRight (Scan.dropComment line)
      let longer := line ++ '\n' :: text
      if endsWithAny line [";", [closeBrace]] then none
      else if (Scan.innermostOpenParen longer).isSome then some longer
      else if endsWith line [openBrace] then none
      else go longer above

/-- The statement up to the cursor, if it holds an open parenthesis. -/
def openText (window : List Text) : Except Scan.ScanError (Option Text) :=
  match window.reverse with
  | [] => .error .indexOutOfRange
  | line :: above => .ok (openFrom line above)

open Pattern in
/-- A chain of names with dots and perhaps an exclamation mark, at the end of the text. -/
def calleePattern : Pattern (Cursor × Cursor) := do
  let callee ← captured do
    Pattern.name
    star do
      blanks
      literal "."
      blanks
      Pattern.name
    optional (literal "!")
  blanks
  atEnd
  pure callee

/-- The name of the called function without white space. -/
def callee? (text : Text) : Option Text :=
  (Pattern.search calleePattern text).map fun found =>
    (found.value.1.between found.value.2).filter fun c => !isBlank c

def consoleMethods : List Text := ["log", "info", "warn", "error", "debug", "trace"]

def printers : List Text :=
  ["print", "println", "printf", "puts", "pprint", "println!", "print!", "eprintln!", "eprint!",
    "dbg!"]

def loggers : List Text := ["logger", "logging", "log", "_logger", "_log", "LOG", "LOGGER"]

def loggerMethods : List Text :=
  ["debug", "info", "warn", "warning", "error", "exception", "critical", "fatal", "trace", "log"]

def fmtMethods : List Text :=
  ["Print", "Println", "Printf", "Fprint", "Fprintln", "Fprintf", "Sprintf"]

def logMethods : List Text :=
  ["Print", "Println", "Printf", "Fatal", "Fatalf", "Panic", "Panicf"]

def standardStreams : List Text := ["out", "err"]

def streamMethods : List Text := ["print", "println", "printf"]

def isNameChain (parts : List Text) : Bool :=
  parts.all fun part => !part.isEmpty && part.all isNameChar

/-- Whether a callee is one of the known logging and printing functions. -/
def isLogCallee (callee : Text) : Bool :=
  match (splitOn '.' callee).reverse with
  | [function] => printers.contains function
  | method :: receiver :: outer =>
    (loggers.contains receiver && loggerMethods.contains method && isNameChain outer) ||
      (outer.isEmpty &&
        ((receiver = "console" && consoleMethods.contains method) ||
          (receiver = "fmt" && fmtMethods.contains method) ||
          (receiver = "log" && logMethods.contains method))) ||
      (outer = [("System" : Text)] && standardStreams.contains receiver &&
        streamMethods.contains method)
  | [] => false

/-- Whether the innermost open call of a statement is a log call. -/
def isLogText (text : Text) : Bool :=
  match Scan.innermostOpenParen text with
  | none => false
  | some paren => (callee? (text.take paren)).any isLogCallee

def isLogCall (window : List Text) : Bool :=
  match openText window with
  | .ok (some text) => isLogText text
  | _ => false

end InlineCompletion.Call
