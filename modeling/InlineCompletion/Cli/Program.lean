import InlineCompletion.Cli.Command
import InlineCompletion.Cli.Session
import InlineCompletion.Client.Provider
import InlineCompletion.Digest
import InlineCompletion.Engine.Run

/-!
The program as a function of what it finds: what it prints, what it logs, what it leaves on the
disk and the code it exits with.
-/

namespace InlineCompletion

/-- An adapter for the provider in the settings, and what it makes of one document. Requests are
noted as the adapter sends them. -/
def Adapter.completeOnce (adapter : Adapter) (backend : Backend) (settings : Settings)
    (document : Document) (position : Position) : Except Failure (Completed × List Data) := do
  let env : Environment := { digest := Digest.sha256, clock := fun _ => 0.0 }
  let done ← Engine.completeOnce env settings (adapter.client backend settings.stream) document
    position
  return (done, done.engine.recordedCalls.flatMap adapter.trace)

namespace Cli

/-- What a run leaves behind. -/
structure Report where
  exitCode : Nat
  output : Text
  /-- Error messages and the log on the console. -/
  console : Text
  disk : Disk
  trace : List Data

namespace World

variable (world : World)

/-- The document and the place in it that a target names; none when it is refused. A column beyond
the line means its end. -/
def loadDocument (target : Target) : Action (Option (Document × Position)) := do
  match (← get).journal.disk.read target.file with
  | none =>
    world.refuse ("File not found: " ++ target.file.toText)
    return none
  | some bytes =>
    let document := Document.ofText (← Action.ofExcept (readText bytes)) target.file.name
      target.language
    if target.line < 1 || (document.lineCount : Int) < target.line then
      world.refuse ("Line " ++ Text.ofInt target.line ++ " out of range (1-" ++
        Text.ofNat document.lineCount ++ ")")
      return none
    else if target.column < 1 then
      world.refuse "Column must be >= 1"
      return none
    else
      let line := target.line - 1
      return some (document, ⟨line, min (target.column - 1) (document.lineAt line).length⟩)

/-- What is logged when the user is told something. -/
def logNotice (context : Log.Context) (notice : Notice) : Action Unit := do
  match notice with
  | .failed failure =>
    world.log
      { level := Log.warningLevel
        logger := Log.loggerName "completion.orchestrator"
        message := "Completion request failed: " ++ failure.message
        context
        failure := some failure }
  | _ => pure ()
  world.log
    { level := if notice.isWarning then Log.warningLevel else Log.infoLevel
      logger := Log.loggerName "core.notifier"
      message := notice.text
      context }

/-- The place and the size of a completion, for the log. -/
def completionSummary (position : Position) (text : Text) : Text :=
  "Completion at " ++ Text.ofInt position.line ++ ":" ++ Text.ofInt position.character ++ " (" ++
    Text.ofNat text.length ++ " chars)"

def complete (verbose : Bool) (target : Target) (model : Option Text) (noStream : Bool) :
    Action Nat := do
  match ← world.loadDocument target with
  | none => return 1
  | some (document, position) =>
    let named : List (Text × Data) :=
      match model with
      | some (c :: rest) => [("ollama_default_model", .text (c :: rest))]
      | _ => []
    let single : List (Text × Data) :=
      if noStream then [("completion_stream", .bool false)] else []
    let settings ← world.loadSettings verbose (named ++ single)
    if !settings.hasModel then
      world.refuse "No model selected: pass --model or set OLLAMA_DEFAULT_MODEL"
      return 1
    else
      let created ← Action.ofExcept (Providers.create Providers.initial settings none none none)
      let (done, requests) ← Action.ofExcept
        (created.adapter.completeOnce world.backend settings document position)
      Action.note requests
      let context := Log.Context.ofRequest 1 document.language document.fileName
      done.engine.notices.forM (world.logNotice context)
      match ← Action.ofExcept done.outcome with
      | none => world.log (mainEntry Log.infoLevel "No completion available" context)
      | some text =>
        world.log
          { level := Log.infoLevel
            logger := Log.loggerName "api.facade"
            message := completionSummary position text
            context }
        Action.print text
      return 0

def prompt (verbose : Bool) (target : Target) : Action Nat := do
  match ← world.loadDocument target with
  | none => return 1
  | some (document, position) =>
    let settings ← world.loadSettings verbose []
    let prompt := Prompt.preview settings document position
    Action.print ("# template: " ++ prompt.kind.name)
    Action.print ("# system: " ++ systemPrompt)
    Action.print prompt.render
    return 0

/-- A model as it is listed, marked if it is the one in the settings. -/
def modelLine (settings : Settings) (info : ModelInfo) : Text :=
  (if info.name = settings.model then '*' else ' ') :: ' ' ::
    Text.padRight 40 info.name ++ ' ' :: info.details

def models (verbose : Bool) : Action Nat := do
  let settings ← world.loadSettings verbose []
  let created ← Action.ofExcept (Providers.create Providers.initial settings none none none)
  Action.note created.adapter.listTrace
  match ← Action.ofExcept (Adapter.models world.backend) with
  | [] =>
    world.log
      (mainEntry Log.warningLevel ("No " ++ Adapter.providerName ++ " models found") {})
    return 1
  | found =>
    found.forM fun info => Action.print (modelLine settings info)
    return 0

def perform (verbose : Bool) : Command → Action Nat
  | .complete target model noStream => world.complete verbose target model noStream
  | .prompt target => world.prompt verbose target
  | .models => world.models verbose

/-- The end of a command that failed: the exit code, and the failure in the log. -/
def conclude (failure : Failure) (session : Session) : Nat × Session :=
  if failure.kind = .interrupt then
    (130, world.logged (mainEntry Log.infoLevel "Interrupted by user" {}) session)
  else
    (1,
      world.logged (mainEntry Log.errorLevel ("Fatal error: " ++ failure.message) {}) session)

/-- The exit code of a command and the session after it. -/
def execute (verbose : Bool) (command : Command) : Nat × Session :=
  match (world.perform verbose command).run.run (world.initialSession verbose) with
  | (.ok code, session) => (code, session)
  | (.error failure, session) => world.conclude failure session

def stopped (stop : Stop) : Report :=
  match stop with
  | .help grammar => ⟨0, grammar.help, [], world.disk, []⟩
  | .version => ⟨0, programName ++ ' ' :: programVersion ++ ['\n'], [], world.disk, []⟩
  | .error grammar message =>
    ⟨2, [], grammar.usage ++ grammar.program ++ ": error: " ++ message ++ ['\n'], world.disk, []⟩

/-- Runs the program. Without a command it shows its help and fails. -/
def run : Report :=
  match readInvocation world.arguments with
  | .error stop => world.stopped stop
  | .ok ⟨_, none⟩ => { world.stopped (.help mainGrammar) with exitCode := 1 }
  | .ok ⟨verbose, some command⟩ =>
    let (code, session) := world.execute verbose command
    ⟨code, session.output, session.journal.console, session.journal.disk,
      session.trace⟩

end World

end Cli

end InlineCompletion
