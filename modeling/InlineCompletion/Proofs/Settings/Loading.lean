import InlineCompletion.Proofs.Decimal.Comparisons
import InlineCompletion.Settings.Load
import Mathlib.Tactic.Push

/-!
Which settings are accepted, and when they are said to contradict each other. What a setting says is the value that
the first of its sources gives, read as what the setting holds, or else the default. Settings are accepted exactly if
each of them keeps its own rule and all of them keep the rules between them, and the message about rules of the
second kind names exactly those that are broken, in their order.
-/

namespace InlineCompletion

namespace Validated

variable {α β : Type}

/-- The reading succeeds with a value of this kind. -/
def Yields (reading : Validated α) (expected : α → Prop) : Prop :=
  ∃ value, reading = valid value ∧ expected value

/-- A failure that ends the reading is of this kind. -/
def FailsWith (reading : Validated α) (expected : Failure → Prop) : Prop :=
  ∀ failure, reading = failed failure → expected failure

theorem yields_seq {f : Validated (α → β)} {x : Validated α} {expected : β → Prop} :
    (f <*> x).Yields expected ↔ f.Yields fun f => x.Yields fun x => expected (f x) := by
  show (apply f x).Yields expected ↔ _
  cases f <;> cases x <;> simp [apply, Yields]

theorem yields_map {f : α → β} {x : Validated α} {expected : β → Prop} :
    (f <$> x).Yields expected ↔ x.Yields fun x => expected (f x) := by
  show (map f x).Yields expected ↔ _
  cases x <;> simp [map, Yields]

theorem FailsWith.seq {f : Validated (α → β)} {x : Validated α} {expected : Failure → Prop}
    (first : f.FailsWith expected) (second : x.FailsWith expected) : (f <*> x).FailsWith expected := by
  show (apply f x).FailsWith expected
  cases f <;> cases x <;> simp_all [apply, FailsWith]

theorem FailsWith.map {f : α → β} {x : Validated α} {expected : Failure → Prop} (fails : x.FailsWith expected) :
    (f <$> x).FailsWith expected := by
  show (Validated.map f x).FailsWith expected
  cases x <;> simp_all [Validated.map, FailsWith]

/-- The value given for a setting, or the default, with which it has to agree. -/
def Says (given : Option Data) (read : Data → Except Mismatch α) (default value : α) : Prop :=
  match given with
  | none => value = default
  | some given => read given = .ok value

theorem field_yields {source : Data} {key : Text} {read : Data → Except Mismatch α} {default : α}
    {expected : α → Prop} :
    (field source key read default).Yields expected ↔
      ∃ value, Says (source.field? key) read default value ∧ expected value := by
  rw [field]
  cases source.field? key with
  | none => simp [Says, Yields, eq_comm]
  | some given => cases known : read given <;> simp [Says, Yields, ofField, known]

theorem field_failsWith (source : Data) (key : Text) (read : Data → Except Mismatch α) (default : α)
    (expected : Failure → Prop) : (field source key read default).FailsWith expected := by
  rw [field]
  cases source.field? key with
  | none => nofun
  | some given => cases known : read given <;> simp [FailsWith, ofField, known]

end Validated

namespace Settings

open Validated (Says)

section Readers

variable {α : Type} {default value : α} {given : Option Data}

/-- A default that keeps the rule does not have to be asked. -/
theorem says_demand (read : Data → Except Mismatch α) (holds : α → Bool) (complaint : Text) {rule : α → Prop}
    (decides : ∀ value, holds value = true ↔ rule value) (fine : rule default) :
    Says given (fun source => do demand holds complaint (← read source)) default value ↔
      Says given read default value ∧ rule value := by
  rw [← decides] at fine ⊢
  cases given with
  | none => exact ⟨fun same => ⟨same, same ▸ fine⟩, And.left⟩
  | some source =>
    show (read source >>= demand holds complaint) = .ok value ↔ read source = .ok value ∧ holds value = true
    cases read source with
    | error mismatch => exact ⟨nofun, nofun⟩
    | ok got =>
      show demand holds complaint got = .ok value ↔ _
      rw [demand]
      split <;> grind

theorem says_oneOf {words : List Text} {default value : Text} (fine : default ∈ words) :
    Says given (Coerce.oneOf words) default value ↔ Says given Coerce.text default value ∧ value ∈ words := by
  cases given with
  | none => exact ⟨fun same => ⟨same, same ▸ fine⟩, And.left⟩
  | some source => cases source <;> grind [Says, Coerce.oneOf, Coerce.text]

theorem rotation_yields {source : Data} {key default : Text} {expected : Text → Prop} :
    (rotation source key default).Yields expected ↔
      ∃ text, Says (source.field? key) Coerce.text default text ∧
        (∃ bytes, Log.Size.parse text = .ok bytes) ∧ expected text := by
  rw [← Validated.field_yields, rotation]
  cases Validated.field source key Coerce.text default with
  | invalid faults => simp [Validated.Yields]
  | failed failure => simp [Validated.Yields]
  | valid text =>
    cases known : Log.Size.parse text with
    | ok bytes => simp [Validated.Yields, known]
    | error e =>
      have refused : ¬∃ bytes, Log.Size.parse text = .ok bytes := by simp [known]
      by_cases value : e.failure.kind = .value <;> simp [Validated.Yields, known, value]

theorem rotation_failsWith (source : Data) (key default : Text) :
    (rotation source key default).FailsWith fun failure => failure.kind = .key := by
  have never := Validated.field_failsWith source key Coerce.text default fun _ => False
  intro failure failed
  rw [rotation] at failed
  split at failed
  · split at failed
    · cases failed
    · next e _ =>
      split at failed
      · cases failed
      · next other =>
        cases failed
        cases e <;> first | rfl | exact absurd rfl other
  · exact (never failure failed).elim

end Readers

/-! What the sources say. -/

theorem lookup_filterMap (said : Text → Option Data) (names : List Text) (name : Text) :
    (names.filterMap fun name => (said name).map fun value => (name, value)).lookup name =
      if name ∈ names then said name else none := by
  induction names with
  | nil => rfl
  | cons other names ih =>
    rw [List.filterMap_cons]
    by_cases same : name = other
    · subst same
      cases known : said name <;> simp [ih, known]
    · have apart : (name == other) = false := beq_false_of_ne same
      cases said other <;> simp [ih, same, List.lookup_cons, apart]

theorem field?_merged (sources : Sources) {name : Text} (named : name ∈ names) :
    sources.merged.field? name = sources.raw name :=
  (lookup_filterMap sources.raw names name).trans (if_pos named)

/-- Each setting is what the sources say. -/
structure Sources.Give (sources : Sources) (settings : Settings) : Prop where
  provider : Says (sources.raw "llm_provider") Coerce.text "ollama" settings.provider
  baseUrl : Says (sources.raw "ollama_base_url") Coerce.text "http://localhost:11434" settings.baseUrl
  model : Says (sources.raw "ollama_default_model") Coerce.text "" settings.model
  debounceMs : Says (sources.raw "completion_debounce_ms") Coerce.int 200 settings.debounceMs
  cacheSize : Says (sources.raw "completion_cache_size") Coerce.int 100 settings.cacheSize
  cacheTtl : Says (sources.raw "completion_cache_ttl_seconds") Coerce.real 300 settings.cacheTtlSeconds
  stream : Says (sources.raw "completion_stream") Coerce.bool true settings.stream
  temperature : Says (sources.raw "completion_temperature") Coerce.real 0.2 settings.temperature
  maxTokens : Says (sources.raw "completion_max_tokens") Coerce.int 256 settings.maxTokens
  linesAbove : Says (sources.raw "context_lines_before") Coerce.int 20 settings.linesAbove
  linesBelow : Says (sources.raw "context_lines_after") Coerce.int 5 settings.linesBelow
  scanWindow : Says (sources.raw "scan_window_lines") Coerce.int 50 settings.scanWindow
  logLevel : Says (sources.raw "log_level") Coerce.text "INFO" settings.logLevel
  logFormat : Says (sources.raw "log_format") Coerce.text "json" settings.logFormat
  logFile : Says (sources.raw "log_file") Coerce.optionalPath none settings.logFile
  logRotation : Says (sources.raw "log_rotation") Coerce.text "10MB" settings.logRotation
  logRetention : Says (sources.raw "log_retention") Coerce.int 30 settings.logRetention

/-- Each setting keeps its own rule. What is not a number is not at most zero, which is all that is asked of a time to
live. -/
structure Sound (settings : Settings) : Prop where
  debounceMs : 0 ≤ settings.debounceMs
  cacheSize : 0 < settings.cacheSize
  cacheTtl : 0 < settings.cacheTtlSeconds ∨ settings.cacheTtlSeconds.isNaN
  temperature : 0 ≤ settings.temperature ∧ settings.temperature ≤ 2
  maxTokens : 0 < settings.maxTokens
  linesAbove : 0 ≤ settings.linesAbove
  linesBelow : 0 ≤ settings.linesBelow
  scanWindow : 0 < settings.scanWindow
  logLevel : settings.logLevel ∈ logLevels
  logFormat : settings.logFormat ∈ logFormats
  logRotation : ∃ bytes, Log.Size.parse settings.logRotation = .ok bytes

theorem sound_default : Sound {} where
  debounceMs := by decide
  cacheSize := by decide
  cacheTtl := by decide +kernel
  temperature := by decide +kernel
  maxTokens := by decide
  linesAbove := by decide
  linesBelow := by decide
  scanWindow := by decide
  logLevel := by decide
  logFormat := by decide
  logRotation := ⟨10 * (1024 * 1024), rfl⟩

section Bounds

variable {given : Option Data} {name : Text}

theorem says_nonNegative {default value : Int} (fine : 0 ≤ default) :
    Says given (nonNegative name) default value ↔ Says given Coerce.int default value ∧ 0 ≤ value :=
  says_demand Coerce.int (fun n => 0 ≤ n) _ (fun _ => decide_eq_true_iff) fine

theorem says_positive {default value : Int} (fine : 0 < default) :
    Says given (positive name) default value ↔ Says given Coerce.int default value ∧ 0 < value :=
  says_demand Coerce.int (fun n => 0 < n) _ (fun _ => decide_eq_true_iff) fine

theorem not_le_zero_iff (x : Float) : (!decide (x ≤ 0.0)) = true ↔ 0 < x ∨ x.isNaN = true := by
  have zero : (0.0 : Float).isNaN = false := by decide +kernel
  rw [Bool.not_eq_true', decide_eq_false_iff_not, not_le_iff_exceeds, zero]
  simp only [Bool.false_eq_true, or_false]
  rfl

theorem says_positiveReal {default value : Float} (fine : 0 < default ∨ default.isNaN) :
    Says given (positiveReal name) default value ↔
      Says given Coerce.real default value ∧ (0 < value ∨ value.isNaN) :=
  says_demand Coerce.real (fun x => !(x ≤ 0.0)) _ not_le_zero_iff fine

theorem within_iff (x : Float) : (decide (0.0 ≤ x) && decide (x ≤ 2.0)) = true ↔ 0 ≤ x ∧ x ≤ 2 := by
  rw [Bool.and_eq_true, decide_eq_true_eq, decide_eq_true_eq]
  rfl

theorem says_temperature {default value : Float} (fine : 0 ≤ default ∧ default ≤ 2) :
    Says given temperatureOf default value ↔ Says given Coerce.real default value ∧ 0 ≤ value ∧ value ≤ 2 :=
  says_demand Coerce.real (fun x => 0.0 ≤ x && x ≤ 2.0) _ within_iff fine

end Bounds

theorem read_eq_valid_iff (sources : Sources) (settings : Settings) :
    read sources.merged = .valid settings ↔ sources.Give settings ∧ settings.Sound := by
  have yields : read sources.merged = .valid settings ↔ (read sources.merged).Yields (· = settings) := by
    simp [Validated.Yields]
  have fine := sound_default
  have said : ∀ name ∈ names, sources.merged.field? name = sources.raw name := fun _ => field?_merged sources
  simp only [names, List.forall_mem_cons] at said
  rw [yields, read]
  simp (disch := decide) only [Validated.yields_seq, Validated.yields_map, Validated.field_yields, rotation_yields,
    said, says_nonNegative, says_positive, says_positiveReal fine.cacheTtl, says_temperature fine.temperature,
    says_oneOf]
  constructor
  · rintro ⟨_, provider, _, baseUrl, _, model, _, ⟨debounceMs, delay⟩, _, ⟨cacheSize, room⟩, _, ⟨cacheTtl, lasting⟩,
      _, stream, _, ⟨temperature, mild⟩, _, ⟨maxTokens, speech⟩, _, ⟨linesAbove, above⟩, _, ⟨linesBelow, below⟩,
      _, ⟨scanWindow, sight⟩, _, ⟨logLevel, level⟩, _, ⟨logFormat, format⟩, _, logFile, _, logRotation, size,
      _, logRetention, rfl⟩
    exact ⟨{ provider, baseUrl, model, debounceMs, cacheSize, cacheTtl, stream, temperature, maxTokens, linesAbove,
             linesBelow, scanWindow, logLevel, logFormat, logFile, logRotation, logRetention },
      ⟨delay, room, lasting, mild, speech, above, below, sight, level, format, size⟩⟩
  · rintro ⟨given, sound⟩
    exact ⟨_, given.provider, _, given.baseUrl, _, given.model, _, ⟨given.debounceMs, sound.debounceMs⟩,
      _, ⟨given.cacheSize, sound.cacheSize⟩, _, ⟨given.cacheTtl, sound.cacheTtl⟩, _, given.stream,
      _, ⟨given.temperature, sound.temperature⟩, _, ⟨given.maxTokens, sound.maxTokens⟩,
      _, ⟨given.linesAbove, sound.linesAbove⟩, _, ⟨given.linesBelow, sound.linesBelow⟩,
      _, ⟨given.scanWindow, sound.scanWindow⟩, _, ⟨given.logLevel, sound.logLevel⟩,
      _, ⟨given.logFormat, sound.logFormat⟩, _, given.logFile, _, given.logRotation, sound.logRotation,
      _, given.logRetention, rfl⟩

theorem read_failsWith (source : Data) : (read source).FailsWith fun failure => failure.kind = .key := by
  rw [read]
  repeat' apply Validated.FailsWith.seq
  case first.second => exact rotation_failsWith _ _ _
  all_goals first
    | exact Validated.field_failsWith _ _ _ _ _
    | exact .map (Validated.field_failsWith _ _ _ _ _)

/-- The rules between the settings. -/
inductive CrossRule where
  /-- The lines above the cursor lie in the window that is scanned. -/
  | window
  /-- The address of the server is one of the web. -/
  | address
  deriving DecidableEq, Repr

namespace CrossRule

/-- The rules in the order in which they are asked. -/
def all : List CrossRule := [window, address]

def Kept (settings : Settings) : CrossRule → Prop
  | window => settings.linesAbove ≤ settings.scanWindow
  | address => ("http://" : Text) <+: settings.baseUrl ∨ ("https://" : Text) <+: settings.baseUrl

instance (settings : Settings) : DecidablePred (Kept settings)
  | window => inferInstanceAs (Decidable (_ ≤ _))
  | address => inferInstanceAs (Decidable (_ ∨ _))

def complaint : CrossRule → Text
  | window => "CONTEXT_LINES_BEFORE must be <= SCAN_WINDOW_LINES"
  | address => "OLLAMA_BASE_URL must be an http(s) URL"

/-- The broken rules in their order. -/
def broken (settings : Settings) : List CrossRule :=
  all.filter fun rule => ¬rule.Kept settings

theorem mem_broken {settings : Settings} {rule : CrossRule} : rule ∈ broken settings ↔ ¬rule.Kept settings := by
  rw [broken, List.mem_filter, decide_eq_true_eq]
  exact and_iff_right (by cases rule <;> decide)

end CrossRule

theorem CrossRule.map_broken {α : Type} (settings : Settings) (f : CrossRule → α) :
    (broken settings).map f =
      (if window.Kept settings then [] else [f window]) ++ (if address.Kept settings then [] else [f address]) := by
  by_cases first : window.Kept settings <;> by_cases second : address.Kept settings <;>
    simp [broken, all, first, second]

theorem inconsistencies_eq (settings : Settings) :
    settings.inconsistencies = (CrossRule.broken settings).map CrossRule.complaint := by
  have window : settings.linesAbove > settings.scanWindow ↔ ¬CrossRule.window.Kept settings := Int.not_le.symm
  have address : Text.startsWithAny settings.baseUrl ["http://", "https://"] = true ↔
      CrossRule.address.Kept settings := by
    simp [Text.startsWithAny, Text.startsWith, CrossRule.Kept]
  rw [CrossRule.map_broken, inconsistencies]
  congr 1
  · by_cases kept : CrossRule.window.Kept settings
    · rw [if_pos kept, if_neg fun broken => window.mp broken kept]
    · rw [if_neg kept, if_pos (window.mpr kept)]
      rfl
  · by_cases kept : CrossRule.address.Kept settings
    · rw [if_pos kept, if_pos (address.mpr kept)]
    · rw [if_neg kept, if_neg fun web => kept (address.mp web)]
      rfl

theorem inconsistencies_isEmpty (settings : Settings) :
    settings.inconsistencies.isEmpty = true ↔ ∀ rule : CrossRule, rule.Kept settings := by
  rw [inconsistencies_eq, List.isEmpty_iff, List.map_eq_nil_iff, List.eq_nil_iff_forall_not_mem]
  simp only [CrossRule.mem_broken, Decidable.not_not]

theorem ofData_of_valid {source : Data} {settings : Settings} (known : read source = .valid settings) :
    ofData source =
      if settings.inconsistencies.isEmpty then .ok settings
      else .error ⟨.configuration, Text.join "; " settings.inconsistencies⟩ := by
  rw [ofData, known]
  rfl

/-- Whatever is wrong with one setting is not said to be a contradiction. -/
theorem ofData_of_not_valid {source : Data} (unknown : ∀ settings, read source ≠ .valid settings) :
    ∃ failure, ofData source = .error failure ∧ failure.kind ≠ .configuration := by
  have key := read_failsWith source
  rw [ofData]
  cases known : read source with
  | valid settings => exact absurd known (unknown settings)
  | invalid faults => exact ⟨Validated.failureOf faults, rfl, nofun⟩
  | failed failure => exact ⟨failure, rfl, by rw [key failure known]; nofun⟩

theorem load_eq_ok_iff (sources : Sources) (settings : Settings) :
    load sources = .ok settings ↔
      sources.Give settings ∧ settings.Sound ∧ ∀ rule : CrossRule, rule.Kept settings := by
  rw [← and_assoc, ← read_eq_valid_iff, ← inconsistencies_isEmpty, load]
  by_cases known : ∃ settings, read sources.merged = .valid settings
  · obtain ⟨read, known⟩ := known
    rw [known, ofData_of_valid known]
    split <;> grind
  · push Not at known
    obtain ⟨failure, failed, -⟩ := ofData_of_not_valid known
    rw [failed]
    exact ⟨nofun, fun both => absurd both.1 (known settings)⟩

theorem load_eq_configuration_iff (sources : Sources) (message : Text) :
    load sources = .error ⟨.configuration, message⟩ ↔
      ∃ settings, sources.Give settings ∧ settings.Sound ∧ (∃ rule : CrossRule, ¬rule.Kept settings) ∧
        message = Text.join "; " ((CrossRule.broken settings).map CrossRule.complaint) := by
  have breaks (settings : Settings) :
      settings.inconsistencies.isEmpty = false ↔ ∃ rule : CrossRule, ¬rule.Kept settings := by
    rw [← Bool.not_eq_true, inconsistencies_isEmpty, not_forall]
  simp only [← and_assoc, ← read_eq_valid_iff sources, ← breaks, ← inconsistencies_eq, load]
  by_cases known : ∃ settings, read sources.merged = .valid settings
  · obtain ⟨settings, known⟩ := known
    rw [ofData_of_valid known]
    simp only [known]
    split <;> grind
  · push Not at known
    obtain ⟨failure, failed, other⟩ := ofData_of_not_valid known
    rw [failed]
    refine ⟨fun same => absurd (congrArg Failure.kind (Except.error.inj same)) other, ?_⟩
    rintro ⟨settings, ⟨read, -⟩, -⟩
    exact absurd read (known settings)

theorem Sound.cache {settings : Settings} (sound : settings.Sound) :
    ∃ cache, Cache.empty settings.cacheSize settings.cacheTtlSeconds = .ok cache := by
  have room : ¬settings.cacheSize < 1 := Int.not_lt.mpr sound.cacheSize
  exact ⟨_, by rw [Cache.empty, if_neg room]⟩

end Settings

end InlineCompletion
