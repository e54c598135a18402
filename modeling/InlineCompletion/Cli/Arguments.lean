import InlineCompletion.Data.Basic
import InlineCompletion.Decimal.Reading
import InlineCompletion.Text.Quoted

/-!
Command lines: options that begin with a dash and words that do not. A long option may be shortened
while it stays unique and may have its value behind an equals sign; the value of a short one may
follow at once. Everything behind two dashes is a word.
-/

namespace InlineCompletion.Cli

inductive OptionKind where
  | help
  | version
  | switch
  | text
  | number
  deriving DecidableEq, Repr

structure OptionSpec where
  /-- The first name is the short one if there is one. -/
  names : List Text
  kind : OptionKind
  required : Bool := false
  deriving DecidableEq, Repr

namespace OptionSpec

variable (spec : OptionSpec)

def takesValue : Bool :=
  spec.kind = .text || spec.kind = .number

def display : Text :=
  Text.join "/" spec.names

/-- The name under which its value is kept. -/
def key : Text :=
  spec.names.getLastD []

end OptionSpec

/-- What the words of a command line are. -/
inductive Positional where
  | none
  /-- One word that has to be there, named in messages. -/
  | single (name : Text)
  /-- One of the given words, with all that follows it. -/
  | command (name : Text) (choices : List Text)
  deriving DecidableEq, Repr

structure Grammar where
  program : Text
  options : List OptionSpec
  positional : Positional
  usage : Text
  help : Text

/-- Why a command line leads to nothing. -/
inductive Stop where
  | help (grammar : Grammar)
  | version
  | error (grammar : Grammar) (message : Text)

/-- A match of an argument with an option: the name it stands for and the value inside it. -/
structure OptionUse where
  spec : OptionSpec
  name : Text
  value : Option Text
  /-- The value stands behind an equals sign. -/
  equals : Bool := false
  deriving DecidableEq, Repr

/-- How switches written together end. -/
inductive ClusterEnd where
  /-- An option with the rest as its value. -/
  | value (spec : OptionSpec) (t : Text)
  /-- An option without anything behind it. -/
  | bare (spec : OptionSpec)
  /-- A rest that starts with no option. -/
  | unknown (t : Text)
  deriving DecidableEq, Repr

inductive Token where
  | word (t : Text)
  | dashes
  /-- An argument with a dash; no option at all may be meant. -/
  | option (t : Text) (used : Option OptionUse)
  deriving DecidableEq, Repr

def Token.text : Token → Text
  | word t => t
  | dashes => "--"
  | option t _ => t

structure Parsed where
  /-- Values of options by their keys, the latest first. -/
  values : List (Text × Data) := []
  /-- The words that were taken, if they were. -/
  words : Option (List Text) := none
  /-- Arguments that nothing was made of. -/
  extras : List Text := []

namespace Grammar

variable (grammar : Grammar)

/-- All names with their options, in the order in which they were declared. -/
def named : List (Text × OptionSpec) :=
  grammar.options.flatMap fun spec => spec.names.map fun name => (name, spec)

/-- The text before the first equals sign and the text after it. -/
def splitEquals (arg : Text) : Option (Text × Text) :=
  if '=' ∈ arg then some (arg.takeWhile (· ≠ '='), (arg.dropWhile (· ≠ '=')).drop 1) else none

def isNegativeNumber (arg : Text) : Bool :=
  let core := if Text.endsWith arg "\n" then arg.dropLast else arg
  match core with
  | '-' :: rest =>
    let fraction := rest.dropWhile Text.isDigit
    match fraction with
    | [] => !rest.isEmpty
    | '.' :: digits => !digits.isEmpty && digits.all Text.isDigit
    | _ => false
  | _ => false

/-- The options that a shortened argument may mean. -/
def candidates (arg : Text) : List OptionUse :=
  match arg with
  | '-' :: '-' :: _ =>
    let (start, value) :=
      match splitEquals arg with
      | some (start, value) => (start, some value)
      | none => (arg, none)
    grammar.named.filterMap fun (name, spec) =>
      if Text.startsWith name start then some ⟨spec, name, value, value.isSome⟩ else none
  | _ =>
    grammar.named.filterMap fun (name, spec) =>
      if name = arg.take 2 then some { spec, name, value := some (arg.drop 2) }
      else if Text.startsWith name arg then some { spec, name, value := none }
      else none

def ambiguous (arg : Text) (uses : List OptionUse) : Stop :=
  .error grammar ("ambiguous option: " ++ arg ++ " could match " ++
    Text.commaSeparated (uses.map (·.name)))

/-- What an argument before any double dash is. -/
def classify (arg : Text) : Except Stop Token :=
  if !Text.startsWith arg "-" then .ok (.word arg)
  else
    match grammar.named.lookup arg with
    | some spec => .ok (.option arg (some { spec, name := arg, value := none }))
    | none =>
      if arg.length = 1 then .ok (.word arg)
      else
        let exact := (splitEquals arg).bind fun (name, value) =>
          (grammar.named.lookup name).map fun spec => (⟨spec, name, some value, true⟩ : OptionUse)
        match exact with
        | some used => .ok (.option arg (some used))
        | none =>
          match grammar.candidates arg with
          | [used] => .ok (.option arg (some used))
          | [] =>
            if isNegativeNumber arg || ' ' ∈ arg then .ok (.word arg) else .ok (.option arg none)
          | uses => .error (grammar.ambiguous arg uses)

def tokens : List Text → Except Stop (List Token)
  | [] => .ok []
  | arg :: rest =>
    if arg = ("--" : Text) then .ok (.dashes :: rest.map .word)
    else do
      let token ← grammar.classify arg
      return token :: (← tokens rest)

def argumentError (spec : OptionSpec) (message : Text) : Stop :=
  .error grammar ("argument " ++ spec.display ++ ": " ++ message)

def readValue (spec : OptionSpec) (value : Text) : Except Stop Data :=
  if spec.kind = .number then
    match Decimal.readInt value with
    | some n => .ok (.int n)
    | none => .error (grammar.argumentError spec ("invalid int value: " ++ Text.quoted value))
  else .ok (.text value)

/-- The effect of an option that takes no value. -/
def flip (spec : OptionSpec) (parsed : Parsed) : Except Stop Parsed :=
  match spec.kind with
  | .help => .error (.help grammar)
  | .version => .error .version
  | _ => .ok { parsed with values := (spec.key, .bool true) :: parsed.values }

def ignoredValue (spec : OptionSpec) (value : Text) : Stop :=
  grammar.argumentError spec ("ignored explicit argument " ++ Text.quoted value)

/-- Switches written together behind one dash, and what comes after them. -/
def takeCluster (switches : List OptionSpec) (spec : OptionSpec) (equals : Bool) (value : Text) :
    Except Stop (List OptionSpec × ClusterEnd) :=
  if spec.takesValue then .ok (switches, .value spec value)
  else
    match value with
    | [] => .error (grammar.ignoredValue spec [])
    | c :: rest =>
      if equals || c = '-' then .error (grammar.ignoredValue spec (c :: rest))
      else
        match grammar.named.lookup ['-', c], rest with
        | none, _ => .ok (switches ++ [spec], .unknown ('-' :: c :: rest))
        | some next, [] => .ok (switches ++ [spec], .bare next)
        | some next, '=' :: rest => takeCluster (switches ++ [spec]) next true rest
        | some next, rest => takeCluster (switches ++ [spec]) next false rest

/-- Applies switches in order. -/
def flipAll (switches : List OptionSpec) (parsed : Parsed) : Except Stop Parsed :=
  switches.foldlM (fun parsed spec => grammar.flip spec parsed) parsed

def store (spec : OptionSpec) (value : Text) (parsed : Parsed) : Except Stop Parsed := do
  let data ← grammar.readValue spec value
  return { parsed with values := (spec.key, data) :: parsed.values }

/-- The value of an option in the argument behind it. -/
def takeNext (spec : OptionSpec) (rest : List Token) (parsed : Parsed) :
    Except Stop (Parsed × List Token) :=
  if spec.takesValue then
    match rest with
    | .word value :: more => do return (← grammar.store spec value parsed, more)
    | _ => .error (grammar.argumentError spec "expected one argument")
  else do return (← grammar.flip spec parsed, rest)

/-- One option with its value, and the tokens behind it. -/
def takeOption (used : OptionUse) (rest : List Token) (parsed : Parsed) :
    Except Stop (Parsed × List Token) :=
  match used.value with
  | none => grammar.takeNext used.spec rest parsed
  | some value =>
    if used.spec.takesValue then do return (← grammar.store used.spec value parsed, rest)
    else if Text.startsWith used.name "--" then .error (grammar.ignoredValue used.spec value)
    else do
      let (switches, last) ← grammar.takeCluster [] used.spec used.equals value
      let parsed : Parsed :=
        match last with
        | .unknown t => { parsed with extras := parsed.extras ++ [t] }
        | _ => parsed
      let parsed ← grammar.flipAll switches parsed
      match last with
      | .value spec value => return (← grammar.store spec value parsed, rest)
      | .bare spec => grammar.takeNext spec rest parsed
      | .unknown _ => return (parsed, rest)

def dropDashes : List Token → List Token
  | .dashes :: rest => rest
  | tokens => tokens

/-- A word at the front, with double dashes around it, and the tokens behind it. -/
def frontWord (tokens : List Token) : Option (Text × List Token) :=
  match dropDashes tokens with
  | .word t :: rest => some (t, dropDashes rest)
  | _ => none

def invalidChoice (name : Text) (choices : List Text) (word : Text) : Stop :=
  .error grammar ("argument " ++ name ++ ": invalid choice: " ++ Text.quoted word ++
    " (choose from " ++ Text.commaSeparated (choices.map Text.quoted) ++ ")")

/-- Takes the words at the front, if they have not been taken and are there. -/
def takeWords (tokens : List Token) (parsed : Parsed) : Except Stop (Parsed × List Token) :=
  match parsed.words, grammar.positional, frontWord tokens with
  | none, .single _, some (word, rest) => .ok ({ parsed with words := some [word] }, rest)
  | none, .command name choices, some _ =>
    match tokens.map Token.text with
    | [] => .ok (parsed, tokens)
    | word :: rest =>
      if choices.contains word then .ok ({ parsed with words := some (word :: rest) }, [])
      else .error (grammar.invalidChoice name choices word)
  | _, _, _ => .ok (parsed, tokens)

def isOption : Token → Bool
  | .option _ _ => true
  | _ => false

/-- Goes through the tokens up to the last option. -/
def takeAll : Nat → List Token → Parsed → Except Stop (Parsed × List Token)
  | 0, tokens, parsed => .ok (parsed, tokens)
  | fuel + 1, tokens, parsed =>
    match tokens with
    | .option t none :: rest => takeAll fuel rest { parsed with extras := parsed.extras ++ [t] }
    | .option _ (some used) :: rest => do
      let (parsed, rest) ← grammar.takeOption used rest parsed
      takeAll fuel rest parsed
    | _ =>
      if tokens.any isOption then do
        let (parsed, rest) ← grammar.takeWords tokens parsed
        if rest.length < tokens.length then takeAll fuel rest parsed
        else
          let skipped := tokens.takeWhile fun token => !isOption token
          takeAll fuel (tokens.drop skipped.length)
            { parsed with extras := parsed.extras ++ skipped.map Token.text }
      else .ok (parsed, tokens)

def missing (parsed : Parsed) : List Text :=
  (match grammar.positional, parsed.words with
    | .single name, none => [name]
    | _, _ => []) ++
    (grammar.options.filter fun spec =>
      spec.required && (parsed.values.lookup spec.key).isNone).map OptionSpec.display

def parse (args : List Text) : Except Stop Parsed := do
  let tokens ← grammar.tokens args
  let (parsed, rest) ← grammar.takeAll (tokens.length + 1) tokens {}
  let (parsed, rest) ← grammar.takeWords rest parsed
  let parsed := { parsed with extras := parsed.extras ++ rest.map Token.text }
  let missing := grammar.missing parsed
  if missing.isEmpty then return parsed
  else
    .error (.error grammar
      ("the following arguments are required: " ++ Text.commaSeparated missing))

end Grammar

end InlineCompletion.Cli
