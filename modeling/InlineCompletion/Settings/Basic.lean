import InlineCompletion.Cache.Basic
import InlineCompletion.Data.Validated
import InlineCompletion.Document.Path
import InlineCompletion.Log.Size

/-!
The settings of the program and the rules they have to keep.
-/

namespace InlineCompletion

structure Settings where
  provider : Text := "ollama"
  baseUrl : Text := "http://localhost:11434"
  /-- Empty while no model is selected. -/
  model : Text := []
  debounceMs : Int := 200
  cacheSize : Int := Cache.defaultCapacity
  cacheTtlSeconds : Float := Cache.defaultTtl
  stream : Bool := true
  temperature : Float := 0.2
  maxTokens : Int := 256
  linesAbove : Int := 20
  linesBelow : Int := 5
  scanWindow : Int := 50
  logLevel : Text := "INFO"
  logFormat : Text := "json"
  logFile : Option Path := none
  logRotation : Text := "10MB"
  logRetention : Int := 30

namespace Settings

/-- The names under which the settings are given, in their order. -/
def names : List Text :=
  ["llm_provider", "ollama_base_url", "ollama_default_model", "completion_debounce_ms",
    "completion_cache_size", "completion_cache_ttl_seconds", "completion_stream",
    "completion_temperature", "completion_max_tokens", "context_lines_before",
    "context_lines_after", "scan_window_lines", "log_level", "log_format", "log_file",
    "log_rotation", "log_retention"]

def logLevels : List Text := ["DEBUG", "INFO", "WARNING", "ERROR"]

def logFormats : List Text := ["json", "text"]

/-- Refuses a value that breaks a rule. -/
def demand (holds : α → Bool) (complaint : Text) (value : α) : Except Mismatch α :=
  if holds value then .ok value else .error (.rule complaint)

def nonNegative (name : Text) (source : Data) : Except Mismatch Int := do
  demand (fun n => 0 ≤ n) (name ++ " must be >= 0") (← Coerce.int source)

def positive (name : Text) (source : Data) : Except Mismatch Int := do
  demand (fun n => 0 < n) (name ++ " must be > 0") (← Coerce.int source)

def positiveReal (name : Text) (source : Data) : Except Mismatch Float := do
  demand (fun x => !(x ≤ 0.0)) (name ++ " must be > 0") (← Coerce.real source)

def temperatureOf (source : Data) : Except Mismatch Float := do
  demand (fun x => 0.0 ≤ x && x ≤ 2.0) "completion_temperature must be between 0 and 2"
    (← Coerce.real source)

/-- A size that can be parsed. A unit of the right form that is not known ends the reading. -/
def rotation (source : Data) (key : Text) (default : Text) : Validated Text :=
  match Validated.field source key Coerce.text default with
  | .valid text =>
    match Log.Size.parse text with
    | .ok _ => .valid text
    | .error e =>
      if e.failure.kind = .value then .invalid [⟨key, .rule e.failure.text⟩] else .failed e.failure
  | other => other

/-- The settings named in a record; the others have their default. -/
def read (source : Data) : Validated Settings :=
  let base : Settings := {}
  let field {α : Type} (key : Text) (reader : Data → Except Mismatch α) (default : α) :=
    Validated.field source key reader default
  let bounded (key : Text) (reader : Text → Data → Except Mismatch Int) (default : Int) :=
    field key (reader key) default
  Settings.mk <$> field "llm_provider" Coerce.text base.provider
    <*> field "ollama_base_url" Coerce.text base.baseUrl
    <*> field "ollama_default_model" Coerce.text base.model
    <*> bounded "completion_debounce_ms" nonNegative base.debounceMs
    <*> bounded "completion_cache_size" positive base.cacheSize
    <*> field "completion_cache_ttl_seconds" (positiveReal "completion_cache_ttl_seconds")
      base.cacheTtlSeconds
    <*> field "completion_stream" Coerce.bool base.stream
    <*> field "completion_temperature" temperatureOf base.temperature
    <*> bounded "completion_max_tokens" positive base.maxTokens
    <*> bounded "context_lines_before" nonNegative base.linesAbove
    <*> bounded "context_lines_after" nonNegative base.linesBelow
    <*> bounded "scan_window_lines" positive base.scanWindow
    <*> field "log_level" (Coerce.oneOf logLevels) base.logLevel
    <*> field "log_format" (Coerce.oneOf logFormats) base.logFormat
    <*> field "log_file" Coerce.optionalPath base.logFile
    <*> rotation source "log_rotation" base.logRotation
    <*> field "log_retention" Coerce.int base.logRetention

/-- What is wrong with settings that are fine one by one. -/
def inconsistencies (settings : Settings) : List Text :=
  (if settings.linesAbove > settings.scanWindow then
    [("CONTEXT_LINES_BEFORE must be <= SCAN_WINDOW_LINES" : Text)] else []) ++
  (if Text.startsWithAny settings.baseUrl ["http://", "https://"] then []
    else [("OLLAMA_BASE_URL must be an http(s) URL" : Text)])

/-- Settings whose fields are valid and agree with each other. -/
def ofData (source : Data) : Except Failure Settings := do
  let settings ← (read source).toExcept
  if settings.inconsistencies.isEmpty then .ok settings
  else .error ⟨.configuration, Text.join "; " settings.inconsistencies⟩

variable (settings : Settings)

/-- The nearest binary64 number. -/
def debounceSeconds : Float :=
  Decimal.floatOf settings.debounceMs.toNat (-3)

/-- What stands for the seconds of a delay that lie beyond all binary64 numbers. -/
def delayOverflow : Failure := ⟨.overflow, "integer division result too large for a float"⟩

/-- The seconds of the debounce, rounded to 53 bits, are 2 ^ 1024 or more. -/
def debounceOverflows : Bool :=
  (1 <<< 54) - 1 ≤ (settings.debounceMs.toNat / 1000) >>> 970

def hasModel : Bool :=
  !Text.allBlank settings.model

/-- All settings by name. -/
def fields : List (Text × Data) :=
  [("llm_provider", .text settings.provider), ("ollama_base_url", .text settings.baseUrl),
    ("ollama_default_model", .text settings.model),
    ("completion_debounce_ms", .int settings.debounceMs),
    ("completion_cache_size", .int settings.cacheSize),
    ("completion_cache_ttl_seconds", .real settings.cacheTtlSeconds),
    ("completion_stream", .bool settings.stream),
    ("completion_temperature", .real settings.temperature),
    ("completion_max_tokens", .int settings.maxTokens),
    ("context_lines_before", .int settings.linesAbove),
    ("context_lines_after", .int settings.linesBelow),
    ("scan_window_lines", .int settings.scanWindow), ("log_level", .text settings.logLevel),
    ("log_format", .text settings.logFormat),
    ("log_file", .ofOption (settings.logFile.map fun path => .text path.toText)),
    ("log_rotation", .text settings.logRotation), ("log_retention", .int settings.logRetention)]

theorem map_fst_fields : settings.fields.map Prod.fst = names := rfl

end Settings

end InlineCompletion
