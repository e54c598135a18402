import InlineCompletion.Client.Server
import InlineCompletion.Log.Journal
import InlineCompletion.Settings.Load

/-!
A run of the program from the inside: what it finds, what it has done so far, and the actions that
all commands share. An action that fails keeps what was done before.
-/

namespace InlineCompletion.Cli

/-- What the program finds. -/
structure World where
  arguments : List Text
  environment : List (Text × Text) := []
  home : Path := ⟨[], []⟩
  disk : Disk := {}
  backend : Backend := {}
  /-- The time as log records of each format show it. -/
  time : Log.Format → Text

/-- What the program has done. -/
structure Session where
  journal : Log.Journal
  output : Text := []
  /-- What was asked of the model server. -/
  trace : List Data := []

abbrev Action := ExceptT Failure (StateM Session)

def envFileName : Path := ⟨[], [".env"]⟩

/-- The text of a file, its line ends made into line feeds. -/
def readText (bytes : List UInt8) : Except Failure Text :=
  match Utf8.decode bytes with
  | .ok text => .ok (Text.normalizeNewlines text)
  | .error e => .error e.failure

namespace Action

def ofExcept : Except Failure α → Action α
  | .ok value => pure value
  | .error failure => throw failure

def print (text : Text) : Action Unit :=
  modify fun session => { session with output := session.output ++ text ++ ['\n'] }

def note (requests : List Data) : Action Unit :=
  modify fun session => { session with trace := session.trace ++ requests }

end Action

namespace World

variable (world : World)

def logged (entry : Log.Entry) (session : Session) : Session :=
  { session with journal := session.journal.log world.time entry }

/-- A message of the command line itself. -/
def mainEntry (level : Int) (message : Text) (context : Log.Context) : Log.Entry :=
  { level, logger := Log.loggerName "main", message, context }

def log (entry : Log.Entry) : Action Unit :=
  modify (world.logged entry)

def refuse (message : Text) : Action Unit :=
  world.log (mainEntry Log.errorLevel message {})

def setUpLogging (options : Log.Options) : Action Unit := do
  let (failure, journal) := (← get).journal.configure world.home options
  modify fun session => { session with journal }
  failure.forM throw

/-- How the program logs before it knows its settings. -/
def firstOptions (verbose : Bool) : Log.Options where
  level := if verbose then "DEBUG" else "WARNING"
  format := "text"

def optionsOf (verbose : Bool) (settings : Settings) : Log.Options where
  level := if verbose then "DEBUG" else settings.logLevel
  format := settings.logFormat
  file := settings.logFile
  rotation := settings.logRotation
  retention := settings.logRetention

def initialSession (verbose : Bool) : Session where
  journal := (({ disk := world.disk } : Log.Journal).configure world.home (firstOptions verbose)).2

/-- Loads the settings and logs as they say from then on. -/
def loadSettings (verbose : Bool) (overrides : List (Text × Data)) : Action Settings := do
  let bytes := (← get).journal.disk.read envFileName
  let envFile ← Action.ofExcept (bytes.mapM readText)
  let settings ← Action.ofExcept
    (Settings.load { overrides, environment := world.environment, envFile })
  world.setUpLogging (optionsOf verbose settings)
  return settings

end World

end InlineCompletion.Cli
