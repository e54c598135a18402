import InlineCompletion.Disk
import InlineCompletion.Log.Entry
import InlineCompletion.Log.Size
import InlineCompletion.Text.Utf8

/-!
Where log records go: to the console and perhaps to a file, from a level on that can be set.
-/

namespace InlineCompletion.Log

structure Options where
  level : Text := "INFO"
  format : Text := "json"
  file : Option Path := none
  rotation : Text := "10MB"
  retention : Int := 30
  deriving DecidableEq, Repr

/-- A log file: the size at which it is full, and how many old ones are kept. -/
structure FileTarget where
  place : Path
  maxBytes : Nat
  backups : Int
  deriving DecidableEq, Repr

/-- The console has no file. -/
structure Handler where
  format : Format
  file : Option FileTarget := none
  deriving DecidableEq, Repr

structure Journal where
  level : Int := 0
  handlers : List Handler := []
  /-- All that was written to the console. -/
  console : Text := []
  disk : Disk := {}
  deriving DecidableEq, Repr

def levelNumbers : List (Text × Int) :=
  [("CRITICAL", 50), ("FATAL", 50), ("ERROR", 40), ("WARNING", 30), ("WARN", 30), ("INFO", 20),
    ("DEBUG", 10), ("NOTSET", 0)]

def warningLevel : Int := 30

def infoLevel : Int := 20

def errorLevel : Int := 40

/-- Words that name something else than a level, with what is said of each. -/
def badLevels : List (Text × Failure) :=
  [("BASIC_FORMAT", ⟨.value, "Unknown level: '%(levelname)s:%(name)s:%(message)s'"⟩),
    ("_STYLES", ⟨.type, "Level not an integer or a valid string: \x7b" ++
      "'%': (<class 'logging.PercentStyle'>, '%(levelname)s:%(name)s:%(message)s'), " ++
      "'\x7b': (<class 'logging.StrFormatStyle'>, '\x7blevelname\x7d:\x7bname\x7d:\x7bmessage\x7d'), " ++
      "'$': (<class 'logging.StringTemplateStyle'>, '$\x7blevelname\x7d:$\x7bname\x7d:$\x7bmessage\x7d')\x7d"⟩)]

/-- The number of a level named in any case; other words mean the usual level. -/
def levelOf (name : Text) : Except Failure Int :=
  let name := Text.upper name
  match badLevels.lookup name with
  | some failure => .error failure
  | none => .ok ((levelNumbers.lookup name).getD infoLevel)

/-- The logger of a part of the program. -/
def loggerName (part : Text) : Text :=
  "ollamacopilot." ++ part

/-- A path that begins with a tilde begins in the home folder. -/
def expandHome (home : Path) (path : Path) : Except Failure Path :=
  match path.root, path.components with
  | [], ('~' :: user) :: rest =>
    if user.isEmpty then .ok { home with components := home.components ++ rest }
    else if Disk.hasNull user then .error Disk.embeddedNull
    else .error ⟨.runtime, "Could not determine home directory."⟩
  | _, _ => .ok path

namespace Journal

variable (journal : Journal)

/-- Makes the folder of the log file and then opens it; the disk keeps what was made. -/
def openTarget (home : Path) (options : Options) (path : Path) :
    Except (Failure × Disk) (FileTarget × Disk) :=
  match expandHome home path with
  | .error failure => .error (failure, journal.disk)
  | .ok path =>
    match journal.disk.makeFolders path.parent with
    | .error failure => .error (failure, journal.disk)
    | .ok disk =>
      match Size.parse options.rotation with
      | .error e => .error (e.failure, disk)
      | .ok maxBytes =>
        match disk.openEnd path with
        | .error failure => .error (failure, disk)
        | .ok (place, disk) => .ok (⟨place, maxBytes, options.retention⟩, disk)

/-- Sets level and handlers anew. A bad level changes nothing; a log file that cannot be opened
leaves the console alone. -/
def configure (home : Path) (options : Options) : Option Failure × Journal :=
  match levelOf options.level with
  | .error failure => (some failure, journal)
  | .ok level =>
    let format := Format.ofName options.format
    let consoleOnly := { journal with level, handlers := [{ format }] }
    match options.file with
    | none => (none, consoleOnly)
    | some path =>
      match journal.openTarget home options path with
      | .error (failure, disk) => (some failure, { consoleOnly with disk })
      | .ok (target, disk) =>
        (none,
          { consoleOnly with disk, handlers := [{ format }, { format, file := some target }] })

/-- Level zero leaves the choice to the default, warnings. -/
def threshold : Int :=
  if journal.level = 0 then warningLevel else journal.level

def writeLine (handler : Handler) (line : Text) : Journal :=
  match handler.file with
  | none => { journal with console := journal.console ++ line ++ ['\n'] }
  | some target =>
    { journal with disk := journal.disk.append target.place (Utf8.encode (line ++ ['\n'])) }

/-- Writes a record with every handler, unless it is below the threshold. -/
def log (time : Format → Text) (entry : Entry) : Journal :=
  if entry.level < journal.threshold then journal
  else
    journal.handlers.foldl
      (fun j handler => j.writeLine handler (entry.write handler.format (time handler.format)))
      journal

end Journal

end InlineCompletion.Log
