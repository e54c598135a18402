import InlineCompletion.Log.Journal
import Mathlib.Data.List.Induction

/-!
What calls that set up the log leave behind, one after the other. A call that returns leaves a level and handlers that
depend on its arguments alone. A call fails either at its level, before anything was changed, or at its log file,
after the level was set and the old handlers gave way to the console. So level and handlers are always those of the
last call with a known level, and only its log file may be missing.
-/

namespace InlineCompletion.Log

variable {home path place here : Path} {options : Options} {names : List Text} {disk : Disk}

/-! What the arguments of a call ask for. -/

/-- Where a path leads to if all folders on the way are there. -/
def destination (path : Path) : Path :=
  path.components.foldl Path.enter ⟨path.root, []⟩

def Options.console (options : Options) : Handler :=
  { format := Format.ofName options.format }

/-- The level is a word that names something else. -/
def Options.Misnamed (options : Options) : Prop :=
  ∃ failure, levelOf options.level = .error failure

/-- The log file at a path, with the size and the number of old files that are asked for. -/
def Options.target? (home : Path) (options : Options) (path : Path) : Option FileTarget :=
  match expandHome home path, Size.parse options.rotation with
  | .ok path, .ok maxBytes => some ⟨destination path, maxBytes, options.retention⟩
  | _, _ => none

/-- The console, and the log file if one is given, with one format. -/
def Options.handlers (home : Path) (options : Options) : List Handler :=
  options.console ::
    ((options.file.bind (options.target? home)).map fun target => { options.console with file := some target }).toList

theorem eq_of_follow (found : disk.follow here names = some place) : place = names.foldl Path.enter here := by
  induction names generalizing here with
  | nil => exact (Option.some_inj.mp found).symm
  | cons name names ih =>
    rw [Disk.follow] at found
    split at found
    · exact ih found
    · cases found

theorem eq_of_openEnd {opened : Path × Disk} (given : disk.openEnd path = .ok opened) :
    opened.1 = destination path := by
  rw [Disk.openEnd] at given
  split at given
  · cases given
  · split at given
    · cases given
    · next place located =>
      split at given
      · cases given
      · split at given <;> cases given <;> exact eq_of_follow located

namespace Journal

variable {journal : Journal}

theorem target?_of_openTarget {target : FileTarget}
    (opened : journal.openTarget home options path = .ok (target, disk)) :
    options.target? home path = some target := by
  rw [openTarget] at opened
  split at opened
  · cases opened
  · next expanded known =>
    split at opened
    · cases opened
    · split at opened
      · cases opened
      · next maxBytes size =>
        split at opened
        · cases opened
        · next place disk given =>
          cases opened
          have lands : place = destination expanded := eq_of_openEnd given
          rw [Options.target?, known, size, lands]

/-- All that a call can do. -/
inductive Called (home : Path) (options : Options) (journal : Journal) : Option Failure → Journal → Prop where
  | badLevel (failure : Failure) (bad : levelOf options.level = .error failure) :
    Called home options journal (some failure) journal
  | noFile (level : Int) (failure : Failure) (disk : Disk) (known : levelOf options.level = .ok level)
    (given : options.file.isSome) :
    Called home options journal (some failure) { journal with level, handlers := [options.console], disk }
  | returned (level : Int) (disk : Disk) (known : levelOf options.level = .ok level)
    (opened : (options.file.bind (options.target? home)).isSome = options.file.isSome) :
    Called home options journal none { journal with level, handlers := options.handlers home, disk }

theorem called_configure (home : Path) (options : Options) (journal : Journal) :
    Called home options journal (journal.configure home options).1 (journal.configure home options).2 := by
  rw [configure]
  split
  · next failure bad => exact .badLevel failure bad
  · next level known =>
    dsimp only
    split
    · next none =>
      have alone : options.handlers home = [{ format := Format.ofName options.format }] := by
        rw [Options.handlers, none]
        rfl
      simp only [← alone]
      exact .returned level journal.disk known (by rw [none]; rfl)
    · next path given =>
      split
      · next failure disk _ => exact .noFile level failure disk known (by rw [given]; rfl)
      · next target disk opened =>
        have asked := target?_of_openTarget opened
        have both : options.handlers home =
            [{ format := Format.ofName options.format },
              { format := Format.ofName options.format, file := some target }] := by
          rw [Options.handlers, given, Option.bind_some, asked]
          rfl
        simp only [← both]
        exact .returned level disk known (by rw [given, Option.bind_some, asked]; rfl)

/-- The calls one after the other, whatever became of each. -/
def configured (home : Path) (journal : Journal) (calls : List Options) : Journal :=
  calls.foldl (fun journal options => (journal.configure home options).2) journal

@[simp]
theorem configured_append (calls : List Options) (options : Options) :
    journal.configured home (calls ++ [options]) = ((journal.configured home calls).configure home options).2 := by
  rw [configured, List.foldl_append]
  rfl

/-- What a call with a known level leaves. -/
structure SetBy (home : Path) (options : Options) (journal : Journal) : Prop where
  level : levelOf options.level = .ok journal.level
  handlers : journal.handlers = options.handlers home ∨ options.file.isSome ∧ journal.handlers = [options.console]

theorem setBy_configure {level : Int} (known : levelOf options.level = .ok level) (journal : Journal) :
    SetBy home options (journal.configure home options).2 := by
  have called := called_configure home options journal
  generalize (journal.configure home options).1 = outcome, (journal.configure home options).2 = after at called ⊢
  cases called with
  | badLevel failure bad => rw [known] at bad; cases bad
  | noFile level failure disk known given => exact ⟨known, .inr ⟨given, rfl⟩⟩
  | returned level disk known opened => exact ⟨known, .inl rfl⟩

theorem configure_eq {failure : Failure} (bad : levelOf options.level = .error failure) (journal : Journal) :
    journal.configure home options = (some failure, journal) := by
  rw [configure, bad]

/-- Calls whose level is no level leave everything as it was, so the last other call is what counts. -/
theorem set_by_last (home : Path) (start : Journal) (calls : List Options) :
    ((∀ options ∈ calls, options.Misnamed) ∧ start.configured home calls = start) ∨
    ∃ earlier last later, calls = earlier ++ last :: later ∧ (∀ options ∈ later, options.Misnamed) ∧
      SetBy home last (start.configured home calls) := by
  induction calls using List.reverseRecOn with
  | nil => exact .inl ⟨by simp, rfl⟩
  | append_singleton calls options ih =>
    rw [configured_append]
    cases known : levelOf options.level with
    | ok level => exact .inr ⟨calls, options, [], rfl, by simp, setBy_configure known _⟩
    | error failure =>
      rw [configure_eq known]
      obtain ⟨bad, same⟩ | ⟨earlier, last, later, rfl, bad, set⟩ := ih
      · exact .inl ⟨by simpa [or_imp, forall_and] using ⟨bad, failure, known⟩, same⟩
      · exact .inr ⟨earlier, last, later ++ [options], by simp,
          by simpa [or_imp, forall_and] using ⟨bad, failure, known⟩, set⟩

theorem formats_handlers (opened : (options.file.bind (options.target? home)).isSome = options.file.isSome) :
    (options.handlers home).map (fun handler => (handler.format, handler.file.isSome)) =
      (Format.ofName options.format, false) ::
        if options.file.isSome then [(Format.ofName options.format, true)] else [] := by
  rw [Options.handlers, ← opened]
  cases options.file.bind (options.target? home) <;> rfl

/-- After any run of calls, one more call returns with its own level and handlers, or it fails at its level and
changes nothing, or it fails at its log file and leaves its level and its console. The run itself left what its last
call with a known level set. -/
theorem own_handlers_or_console (home : Path) (start : Journal) (calls : List Options) (options : Options) :
    let before := start.configured home calls
    let after := start.configured home (calls ++ [options])
    ((∀ options ∈ calls, options.Misnamed) ∧ before = start ∨
      ∃ earlier last later, calls = earlier ++ last :: later ∧ (∀ options ∈ later, options.Misnamed) ∧
        SetBy home last before) ∧
    match (before.configure home options).1 with
    | none =>
      levelOf options.level = .ok after.level ∧ after.handlers = options.handlers home ∧
      after.handlers.map (fun handler => (handler.format, handler.file.isSome)) =
        (Format.ofName options.format, false) ::
          if options.file.isSome then [(Format.ofName options.format, true)] else []
    | some failure =>
      levelOf options.level = .error failure ∧ after = before ∨
      options.file.isSome ∧ levelOf options.level = .ok after.level ∧ after.handlers = [options.console] := by
  intro before after
  refine ⟨set_by_last home start calls, ?_⟩
  have step : after = (before.configure home options).2 := configured_append calls options
  have called := called_configure home options before
  rw [step]
  generalize (before.configure home options).1 = outcome, (before.configure home options).2 = after at called ⊢
  cases called with
  | badLevel failure bad => exact .inl ⟨bad, rfl⟩
  | noFile level failure disk known given => exact .inr ⟨given, known, rfl⟩
  | returned level disk known opened => exact ⟨known, rfl, formats_handlers opened⟩

/-- A size that cannot be read is met after the level and the handlers were changed. -/
theorem not_kept_by_every_failure :
    ¬ ∀ (home : Path) (start : Journal) (calls : List Options) (options : Options),
      let before := start.configured home calls
      let (failure, after) := before.configure home options
      failure.isSome → after.level = before.level ∧ after.handlers = before.handlers := by
  intro kept
  have same := kept ⟨"/", ["home"]⟩ {} [{ level := "ERROR", format := "text" }]
    { level := "DEBUG", file := some (.ofText "app.log"), rotation := "ten megs" } (by decide +kernel)
  exact absurd same (by decide +kernel)

end Journal

end InlineCompletion.Log
