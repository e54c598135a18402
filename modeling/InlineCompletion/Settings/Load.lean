import InlineCompletion.Settings.Basic
import InlineCompletion.Settings.EnvFile

/-!
Where settings come from: what the caller says counts first, then the environment, then the file
of variables, then the default. Names of variables are matched without case.
-/

namespace InlineCompletion.Settings

structure Sources where
  overrides : List (Text × Data) := []
  environment : List (Text × Text) := []
  /-- The text of the file of variables, if there is one. -/
  envFile : Option Text := none

/-- The last variable whose name is the given one in lower case. -/
def lookupVariable (name : Text) (entries : List (Text × Text)) : Option Text :=
  (entries.reverse.find? fun entry => Text.lower entry.1 = name).map Prod.snd

def lookupFile (name : Text) (entries : List (Text × Option Text)) : Option Text :=
  (entries.reverse.find? fun entry => Text.lower entry.1 = name).bind Prod.snd

namespace Sources

variable (sources : Sources)

def fileVariables : List (Text × Option Text) :=
  match sources.envFile with
  | none => []
  | some text => EnvFile.read sources.environment text

/-- The value of a setting before it is read. -/
def raw (name : Text) : Option Data :=
  (sources.overrides.lookup name).or
    (((lookupVariable name sources.environment).or
      (lookupFile name sources.fileVariables)).map .text)

def merged : Data :=
  .record (names.filterMap fun name => (sources.raw name).map fun value => (name, value))

end Sources

def load (sources : Sources) : Except Failure Settings :=
  ofData sources.merged

end InlineCompletion.Settings
