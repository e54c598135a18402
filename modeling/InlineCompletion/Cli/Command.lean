import InlineCompletion.Cli.Arguments
import InlineCompletion.Document.Path

/-!
The commands of the program and what can be said about them on the command line.
-/

namespace InlineCompletion.Cli

def programName : Text := "ollamacopilot"

def programVersion : Text := "0.1.0"

def helpOption : OptionSpec := ⟨["-h", "--help"], .help, false⟩

def lineOption : OptionSpec := ⟨["-l", "--line"], .number, true⟩

def columnOption : OptionSpec := ⟨["-c", "--column"], .number, true⟩

def languageOption : OptionSpec := ⟨["--language"], .text, false⟩

def modelOption : OptionSpec := ⟨["--model"], .text, false⟩

def noStreamOption : OptionSpec := ⟨["--no-stream"], .switch, false⟩

def versionOption : OptionSpec := ⟨["--version"], .version, false⟩

def verboseOption : OptionSpec := ⟨["-v", "--verbose"], .switch, false⟩

def cursorOptions : List OptionSpec :=
  [helpOption, lineOption, columnOption, languageOption]

def commandNames : List Text := ["complete", "prompt", "models"]

def mainUsage : Text :=
  "usage: ollamacopilot [-h] [--version] [-v] \x7bcomplete,prompt,models\x7d ...\n"

def mainGrammar : Grammar where
  program := programName
  options := [helpOption, versionOption, verboseOption]
  positional := .command "command" commandNames
  usage := mainUsage
  help := mainUsage ++ "
ollamacopilot v0.1.0 - Inline code completion with local models

positional arguments:
  \x7bcomplete,prompt,models\x7d
    complete            Print the completion suggested at a cursor position
    prompt              Print the prompt a completion would send, without
                        calling the model
    models              List locally available models

options:
  -h, --help            show this help message and exit
  --version             show program's version number and exit
  -v, --verbose         Enable debug logging
"

def completeUsage : Text :=
  "usage: ollamacopilot complete [-h] -l LINE -c COLUMN [--language LANGUAGE]
                              [--model MODEL] [--no-stream]
                              file
"

/-- What the help says of a file and a cursor. -/
def cursorHelp : Text := "
positional arguments:
  file                  Path to the source file

options:
  -h, --help            show this help message and exit
  -l LINE, --line LINE  Cursor line (1-based)
  -c COLUMN, --column COLUMN
                        Cursor column (1-based)
  --language LANGUAGE   Language id (detected from the extension if omitted)
"

def completeGrammar : Grammar where
  program := "ollamacopilot complete"
  options := cursorOptions ++ [modelOption, noStreamOption]
  positional := .single "file"
  usage := completeUsage
  help := completeUsage ++ cursorHelp ++
    "  --model MODEL         Model to use (default: OLLAMA_DEFAULT_MODEL)
  --no-stream           Request the whole response at once instead of
                        streaming
"

def promptUsage : Text :=
  "usage: ollamacopilot prompt [-h] -l LINE -c COLUMN [--language LANGUAGE] file\n"

def promptGrammar : Grammar where
  program := "ollamacopilot prompt"
  options := cursorOptions
  positional := .single "file"
  usage := promptUsage
  help := promptUsage ++ cursorHelp

def modelsUsage : Text := "usage: ollamacopilot models [-h]\n"

def modelsGrammar : Grammar where
  program := "ollamacopilot models"
  options := [helpOption]
  positional := .none
  usage := modelsUsage
  help := modelsUsage ++ "
options:
  -h, --help  show this help message and exit
"

/-- A file and a place in it, counted from one. -/
structure Target where
  file : Path
  line : Int
  column : Int
  language : Option Text
  deriving DecidableEq, Repr

inductive Command where
  | complete (target : Target) (model : Option Text) (noStream : Bool)
  | prompt (target : Target)
  | models
  deriving DecidableEq, Repr

structure Invocation where
  verbose : Bool
  /-- Without one the help is shown. -/
  command : Option Command
  deriving DecidableEq, Repr

namespace Parsed

variable (parsed : Parsed)

def text? (spec : OptionSpec) : Option Text :=
  match parsed.values.lookup spec.key with
  | some (.text t) => some t
  | _ => none

def number (spec : OptionSpec) : Int :=
  match parsed.values.lookup spec.key with
  | some (.int n) => n
  | _ => 0

def isSet (spec : OptionSpec) : Bool :=
  (parsed.values.lookup spec.key).isSome

def target : Target where
  file := Path.ofText ((parsed.words.bind List.head?).getD [])
  line := parsed.number lineOption
  column := parsed.number columnOption
  language := parsed.text? languageOption

end Parsed

/-- The grammar of a command, and what its arguments make of it. -/
def commandNamed (name : Text) : Grammar × (Parsed → Command) :=
  if name = ("complete" : Text) then
    (completeGrammar, fun p => .complete p.target (p.text? modelOption) (p.isSet noStreamOption))
  else if name = ("prompt" : Text) then (promptGrammar, fun p => .prompt p.target)
  else (modelsGrammar, fun _ => .models)

def unrecognized (extras : List Text) : Stop :=
  .error mainGrammar ("unrecognized arguments: " ++ Text.join " " extras)

/-- Reads a command line. Arguments left over by the command or before it are refused at the end. -/
def readInvocation (args : List Text) : Except Stop Invocation := do
  let parsed ← mainGrammar.parse args
  let verbose := parsed.isSet verboseOption
  match parsed.words with
  | some (name :: rest) =>
    let (grammar, build) := commandNamed name
    let inner ← grammar.parse rest
    let extras := parsed.extras ++ inner.extras
    if extras.isEmpty then return ⟨verbose, some (build inner)⟩ else throw (unrecognized extras)
  | _ =>
    if parsed.extras.isEmpty then return ⟨verbose, none⟩ else throw (unrecognized parsed.extras)

end InlineCompletion.Cli
