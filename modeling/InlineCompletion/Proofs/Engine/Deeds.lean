import Mathlib.Logic.Relation
import InlineCompletion.Proofs.Engine.Asides

/-!
What a completion does in one turn that others learn of. Each of its deeds needs a request that is
live when it is done, so that a request that is not live can only step aside.
-/

namespace InlineCompletion

/-- What a request ends with that has nothing to give: nothing, its own cancellation, or what stops
the loop. -/
def Outcome.Dull (outcome : Outcome) : Prop :=
  outcome = .value .nothing ∨ outcome = .cancelled ∨
    ∃ failure : Failure, failure.kind = .interrupt ∧ outcome = .failed failure

theorem Outcome.dull_nothing : (Outcome.value .nothing).Dull :=
  Or.inl rfl

/-- Whether the task is one of a completion that has begun its call. -/
def Phase.asked : Phase → Bool
  | .calling _ (some _) | .reading _ (.completion ..) | .closing _ (.completion ..) => true
  | _ => false

/-- A request that begins: the place is classified, and the key derived, with the settings of the
orchestrator. -/
def Run.entering (env : Environment) (settings : Settings) (orchestrator request : Nat)
    (document : Document) (position : Position) : Run where
  orchestrator
  request
  document
  position
  facts := classify document position settings.scanWindow
  key := (CacheKey.derive env.digest document position
    (classify document position settings.scanWindow) CacheKey.defaultWindow).toOption

namespace Engine

variable {engine old new middle : Engine} {env : Environment} {run other : Run}

/-- The completion is a reply made fit for the place of the request. -/
def Cleaned (engine : Engine) (run : Run) (completion : Text) : Prop :=
  completion ≠ [] ∧ ∃ o raw, engine.orchestrators[run.orchestrator]? = some o ∧
    completion = Reply.clean raw run.facts run.typed (run.existing o.settings)

inductive Deed (env : Environment) (run : Run) : Engine → Engine → Prop where
  | aside {old new : Engine} (silent : Silent old new) : Deed env run old new
  | enters (engine : Engine) (stage : Stage) (live : engine.isLive run = true)
    (busy : stage = .debouncing ∨ stage = .generating) :
    Deed env run engine (engine.setStage run.orchestrator stage)
  | notifies (engine : Engine) (notice : Notice) (live : engine.isLive run = true) :
    Deed env run engine (engine.notify notice)
  | consults (engine : Engine) (o : Orchestrator) (live : engine.isLive run = true)
    (found : engine.orchestrators[run.orchestrator]? = some o) :
    Deed env run engine (engine.lookUp env run o.cache).2
  | asks (engine : Engine) (o : Orchestrator) (call : Call) (live : engine.isLive run = true)
    (found : engine.orchestrators[run.orchestrator]? = some o)
    (selected : call.model = some o.model) :
    Deed env run engine (engine.emit (.asked run.request engine.loop.now call))
  | stores (engine : Engine) (completion : Text) (live : engine.isLive run = true)
    (cleaned : engine.Cleaned run completion) :
    Deed env run engine (engine.store env run completion)

abbrev Deeds (env : Environment) (run : Run) : Engine → Engine → Prop :=
  Relation.ReflTransGen (Deed env run)

/-- A turn of a completion: it waits for its next one, or its request ends. -/
inductive Played (env : Environment) (run : Run) (old : Engine) : Step → Prop where
  | waits (new : Engine) (target : Nat) (phase : Phase) (deeds : Deeds env run old new)
    (works : phase.run? = some run) : Played env run old (new, .wait target phase)
  | ends (new : Engine) (result : Outcome) (deeds : Deeds env run old new)
    (dull : new.isLive run = false → result.Dull) : Played env run old (new.endRun run result)

theorem Played.of_deeds {step : Step} (deeds : Deeds env run old middle)
    (played : Played env run middle step) : Played env run old step := by
  cases played with
  | waits new target phase deeds' works => exact .waits new target phase (deeds.trans deeds') works
  | ends new result deeds' dull => exact .ends new result (deeds.trans deeds') dull

theorem Played.of_aside {step : Step} (silent : Silent old middle)
    (played : Played env run middle step) : Played env run old step :=
  .of_deeds (.single (.aside silent)) played

/-! Nobody's request becomes live or ceases to be so. -/

/-- The orchestrators have the same requests, and no request is cancelled. -/
structure Kept (old new : Engine) : Prop where
  tenures : ∀ id, new.tenureOf id = old.tenureOf id
  marks : ∀ id, new.markOf id = old.markOf id

theorem Kept.trans {last : Engine} (first : Kept old new) (second : Kept new last) : Kept old last :=
  ⟨fun id => (second.tenures id).trans (first.tenures id),
    fun id => (second.marks id).trans (first.marks id)⟩

theorem Aside.kept {tells : Event → Prop} (aside : Aside tells old new) : Kept old new :=
  ⟨tenureOf_of_orchestrators aside.orchestrators, aside.marks⟩

theorem isLive_eq (engine : Engine) (run : Run) : engine.isLive run =
    ((engine.tenureOf run.orchestrator).any (·.1 = some run.request) &&
      !(engine.markOf run.request).any (·.1)) := by
  simp only [Engine.isLive, isCurrent, isCancelled, tenureOf, markOf, Option.any_map]
  rfl

theorem Kept.isLive (kept : Kept old new) (run : Run) : new.isLive run = old.isLive run := by
  rw [isLive_eq, isLive_eq, kept.tenures, kept.marks]

theorem kept_modifyOrchestrator (engine : Engine) (id : Nat) (f : Orchestrator → Orchestrator)
    (same : ∀ o, (f o).tenure = o.tenure) : Kept engine (engine.modifyOrchestrator id f) := by
  refine ⟨fun other => ?_, fun _ => rfl⟩
  show ((engine.orchestrators.modify id f)[other]?).map Orchestrator.tenure = _
  rw [getElem?_modify]
  split
  · simp [tenureOf, Function.comp_def, same]
  · rfl

theorem kept_emit (engine : Engine) (event : Event) : Kept engine (engine.emit event) :=
  ⟨fun _ => rfl, fun _ => rfl⟩

/-- Of orchestrators a deed changes only the stage and the cache of its own. -/
theorem Deed.kept (deed : Deed env run old new) : Kept old new := by
  cases deed with
  | aside silent => exact silent.kept
  | enters stage => exact kept_modifyOrchestrator old _ _ fun _ => by rfl
  | notifies | asks => exact kept_emit ..
  | consults o =>
    unfold lookUp
    split
    · exact ⟨fun _ => rfl, fun _ => rfl⟩
    · dsimp only
      exact (kept_emit ..).trans (kept_modifyOrchestrator _ _ _ fun _ => by rfl)
  | stores completion =>
    unfold store
    split
    · exact ⟨fun _ => rfl, fun _ => rfl⟩
    · exact (kept_emit ..).trans (kept_modifyOrchestrator _ _ _ fun _ => by rfl)

theorem Deeds.kept (deeds : Deeds env run old new) : Kept old new := by
  induction deeds with
  | refl => exact ⟨fun _ => rfl, fun _ => rfl⟩
  | tail _ deed ih => exact ih.trans deed.kept

theorem Deed.steady (deed : Deed env run old new) : Steady old new := by
  cases deed with
  | aside silent => exact silent.steady
  | enters | notifies | asks => exact .of_loop_eq rfl
  | consults =>
    unfold lookUp
    split <;> exact .of_loop_eq rfl
  | stores =>
    unfold store
    split <;> exact .of_loop_eq rfl

theorem Deeds.steady (deeds : Deeds env run old new) : Steady old new := by
  induction deeds with
  | refl => exact .refl old
  | tail _ deed ih => exact ih.trans deed.steady

theorem steady_endRun (engine : Engine) (run : Run) (outcome : Outcome) :
    Steady engine (engine.endRun run outcome).1 := by
  unfold endRun
  split <;> exact .of_loop_eq rfl

/-- A request that is not live steps aside. -/
theorem Deeds.silent (deeds : Deeds env run old new) (stale : old.isLive run = false) :
    Silent old new := by
  induction deeds with
  | refl => exact .refl old
  | tail deeds deed ih =>
    have stale' := ((Deeds.kept deeds).isLive run).trans stale
    cases deed with
    | aside silent => exact ih.trans silent
    | enters _ live | notifies _ live | consults _ live | asks _ _ live | stores _ live =>
      cases live.symm.trans stale'

/-! The end of a completion. -/

theorem played_endRun {result : Outcome}
    (dull : engine.isLive run = false → result.Dull) :
    Played env run engine (engine.endRun run result) :=
  .ends engine result .refl dull

theorem played_acceptReply (env : Environment) (live : engine.isLive run = true) (raw : Text) :
    Played env run engine (engine.acceptReply env run raw) := by
  unfold acceptReply
  split
  · exact played_endRun fun _ => Outcome.dull_nothing
  · dsimp only
    split
    · exact played_endRun fun _ => Outcome.dull_nothing
    · next o found usable =>
      have stored : Deed env run engine (engine.store env run
          (Reply.clean raw run.facts run.typed (run.existing o.settings))) :=
        .stores engine _ live ⟨fun none => usable (List.isEmpty_iff.mpr none), o, raw, found, rfl⟩
      refine .of_deeds (.single stored) (played_endRun fun stale => ?_)
      cases stale.symm.trans ((stored.kept.isLive run).trans live)

theorem played_afterCall (env : Environment) (run : Run) (engine : Engine) (outcome : Outcome) :
    Played env run engine (engine.afterCall env run outcome) := by
  cases outcome with
  | cancelled => exact played_endRun fun _ => Or.inr (Or.inl rfl)
  | failed failure =>
    unfold afterCall
    dsimp only
    split
    · next interrupts => exact played_endRun fun _ => Or.inr (Or.inr ⟨failure, interrupts, rfl⟩)
    · split
      · exact played_endRun fun _ => Outcome.dull_nothing
      · next unsaid =>
        have live : engine.isLive run = true := by
          cases live : engine.isLive run with
          | true => rfl
          | false => simp [live] at unsaid
        exact .of_deeds (.single (.notifies engine (.failed failure) live))
          (played_endRun fun _ => Outcome.dull_nothing)
  | value v =>
    unfold afterCall
    dsimp only
    split
    · next live => exact played_acceptReply env live _
    · exact played_endRun fun _ => Outcome.dull_nothing

/-! The work on a call. -/

/-- A turn of a completion that has asked: it waits on, or the outcome of its call is there. -/
inductive Pursues (env : Environment) (run : Run) (old : Engine) : Step → Prop where
  | waits (new : Engine) (target : Nat) (phase : Phase) (silent : Silent old new)
    (works : phase.run? = some run) (asked : phase.asked = true) :
    Pursues env run old (new, .wait target phase)
  | ended (new : Engine) (outcome : Outcome) (silent : Silent old new) :
    Pursues env run old (new.afterCall env run outcome)

theorem Pursues.of_aside {step : Step} (silent : Silent old middle)
    (pursues : Pursues env run middle step) : Pursues env run old step := by
  cases pursues with
  | waits new target phase silent' works asked =>
    exact .waits new target phase (silent.trans silent') works asked
  | ended new outcome silent' => exact .ended new outcome (silent.trans silent')

theorem Pursues.played {step : Step} (pursues : Pursues env run old step) : Played env run old step := by
  cases pursues with
  | waits new target phase silent works => exact .waits new target phase (.single (.aside silent)) works
  | ended new outcome silent => exact .of_aside silent (played_afterCall env run new outcome)

theorem pursues_afterClosing (env : Environment) (run : Run) (engine : Engine)
    (reading closing : Outcome) :
    Pursues env run engine (engine.afterClosing env (.completion run reading) closing) := by
  cases closing with
  | value v => exact .ended engine reading (.refl engine)
  | failed failure => exact .ended engine (.failed failure) (.refl engine)
  | cancelled => exact .ended engine .cancelled (.refl engine)

theorem pursues_deliverFarewell (env : Environment) (run : Run) (stream : Nat) (reading : Outcome)
    {answer : Option Outcome × Engine} (silent : Silent engine answer.2) :
    Pursues env run engine (deliverFarewell env stream (.completion run reading) answer) := by
  obtain ⟨closing, new⟩ := answer
  refine .of_aside silent ?_
  cases closing with
  | some closing => exact pursues_afterClosing env run new reading closing
  | none => exact .waits _ _ _ (aside_awaitGate new (.closing stream (.completion run reading))) rfl rfl

theorem pursues_closeFor (env : Environment) (run : Run) (engine : Engine) (stream : Nat)
    (reading : Outcome) :
    Pursues env run engine (engine.closeFor env stream (.completion run reading)) := by
  have silent : Silent engine (engine.closeStream stream).2 := aside_closeStream engine stream
  unfold closeFor
  split
  · next new same =>
    rw [same] at silent
    exact .of_aside silent (pursues_deliverFarewell env run stream reading (aside_bidFarewell ..))
  · next failure new same =>
    rw [same] at silent
    exact .of_aside silent (pursues_afterClosing env run new reading _)

theorem pursues_readFor (env : Environment) (run : Run) (engine : Engine) (stream : Nat)
    (pieces : List Text) : Pursues env run engine (engine.readFor env run stream pieces) := by
  have silent : Silent engine (engine.beginRead stream).2 := aside_beginRead engine stream
  unfold readFor
  split
  · next read new same =>
    rw [same] at silent
    exact .waits _ _ _ silent rfl rfl
  · next failure new same =>
    rw [same] at silent
    exact .of_aside silent (pursues_closeFor env run new stream _)

theorem pursues_resumeReading (env : Environment) (run : Run) (engine : Engine) (stream : Nat)
    (pieces : List Text) (outcome : Outcome) :
    Pursues env run engine
      (engine.resumeReading env stream (.completion run pieces) outcome) := by
  have silent : Silent engine (engine.endRead stream outcome).2 := aside_endRead engine stream outcome
  refine .of_aside silent ?_
  unfold resumeReading
  generalize engine.endRead stream outcome = read
  obtain ⟨seen, new⟩ := read
  cases seen with
  | cancelled | failed failure => exact pursues_closeFor env run new stream _
  | value v =>
    cases v with
    | text t => exact pursues_readFor env run new stream _
    | nothing | truth b | drained => exact pursues_closeFor env run new stream _

/-- From whichever phase it waits in for its call, a completion goes on with that. -/
theorem pursues_resume (env : Environment) {phase : Phase} (works : phase.run? = some run)
    (asked : phase.asked = true) (engine : Engine) (outcome : Outcome) :
    Pursues env run engine (engine.resume env phase outcome) := by
  unfold Phase.asked at asked
  split at asked
  · next call owner =>
    cases works
    exact .of_aside (aside_endCall engine call outcome) (.ended _ _ (.refl _))
  · next stream run' pieces =>
    cases works
    exact pursues_resumeReading env run engine stream pieces outcome
  · next stream run' reading =>
    cases works
    exact pursues_deliverFarewell env run stream reading (aside_resumeFarewell ..)
  · cases asked

/-! The call. -/

/-- A live request is not cancelled, so that nothing is stopped when it gets its work. -/
theorem silent_attachCall (live : engine.isLive run = true) (call : Nat) :
    Silent engine (engine.attachCall run.request call) := by
  unfold attachCall
  simp only [not_isCancelled_of_isLive live]
  exact aside_modifyRequest engine _ fun _ => by rfl

theorem silent_attachStream (live : engine.isLive run = true) (stream : Nat) :
    Silent engine (engine.attachStream run.request stream) := by
  unfold attachStream
  simp only [not_isCancelled_of_isLive live]
  exact aside_modifyRequest engine _ fun _ => by rfl

/-- A request that has asked waits for its call, or for the first piece of its stream. -/
inductive Outset (run : Run) : Phase → Prop where
  | calls (call : Nat) : Outset run (.calling call (some run))
  | reads (stream : Nat) : Outset run (.reading stream (.completion run []))

theorem Outset.works {phase : Phase} (outset : Outset run phase) : phase.run? = some run := by
  cases outset <;> rfl

theorem Outset.asked {phase : Phase} (outset : Outset run phase) : phase.asked = true := by
  cases outset <;> rfl

/-- The client has the call: a task of it, no earlier than the first one given, is to answer the call, or a
stream is to open with it. -/
inductive Handed (engine : Engine) (call : Call) (first : Nat) : Phase → Prop where
  | answers (id : Nat) (owner : Option Run) (fresh : first ≤ id)
    (known : engine.loop.Unfinished id { phase := .start (.answer call) }) :
    Handed engine call first (.calling id owner)
  | opens (id : Nat) (consumer : Consumer) (stream : Stream) (found : engine.streams[id]? = some stream)
    (opening : stream.source.opening = some call) : Handed engine call first (.reading id consumer)

/-- A read that begins leaves the source of its stream as it is. -/
theorem source_beginRead {id : Nat} {stream : Stream} (there : engine.streams[id]? = some stream) :
    ∃ found, (engine.beginRead id).2.streams[id]? = some found ∧ found.source = stream.source := by
  unfold beginRead
  simp only [there]
  split
  · exact ⟨stream, there, rfl⟩
  · split
    · exact ⟨stream, there, rfl⟩
    · have found := getElem?_modify engine.streams id id fun s : Stream =>
        { s with pending := some (engine.spawn (.pull id)).1 }
      exact ⟨_, found.trans ((if_pos rfl).trans (congrArg (Option.map _) there)), rfl⟩

/-- A live request that asks has its call under way: nothing has stopped it yet. -/
theorem generate_waits (env : Environment) (live : engine.isLive run = true) (call : Call) :
    ∃ new target phase, engine.generate env run call = (new, .wait target phase) ∧
      Silent (engine.emit (.asked run.request engine.loop.now call)) new ∧ Outset run phase ∧
      Handed new call engine.loop.futures.length phase := by
  unfold generate
  dsimp only
  have size : (engine.emit (.asked run.request engine.loop.now call)).loop.futures.length =
    engine.loop.futures.length := rfl
  generalize asked : engine.emit (.asked run.request engine.loop.now call) = new at size
  have live : new.isLive run = true := asked ▸ live
  split
  · have opened : Silent new (new.openStream call).2 := aside_openStream new call
    have live' := (opened.kept.isLive run).trans live
    have attached := silent_attachStream live' (new.openStream call).1
    have begun : Silent _ (((new.openStream call).2.attachStream run.request
        (new.openStream call).1).beginRead (new.openStream call).1).2 := aside_beginRead ..
    have there : ((new.openStream call).2.attachStream run.request
        (new.openStream call).1).streams[(new.openStream call).1]? =
          some { source := { opening := some call } } := by
      unfold attachStream
      rw [not_isCancelled_of_isLive live']
      exact List.getElem?_concat_length ..
    obtain ⟨stream, opens, source⟩ := source_beginRead there
    refine ⟨_, (new.openStream call).2.loop.futures.length, _, ?_,
      (opened.trans attached).trans begun, .reads (new.openStream call).1, .opens _ _ stream opens (source ▸ rfl)⟩
    have idle : ((new.openStream call).2.attachStream run.request (new.openStream call).1).loop =
        (new.openStream call).2.loop := by
      unfold attachStream
      rw [not_isCancelled_of_isLive live']
      rfl
    rw [← idle]
    unfold readFor beginRead
    simp only [there]
    rfl
  · have begun : Silent new (new.beginCall call).2 := aside_beginCall new call
    have attached := silent_attachCall ((begun.kept.isLive run).trans live) (new.beginCall call).1
    have answers : ((new.beginCall call).2.attachCall run.request (new.beginCall call).1).loop.Unfinished
        (new.beginCall call).1 { phase := .start (.answer call) } := by
      unfold attachCall
      rw [not_isCancelled_of_isLive ((begun.kept.isLive run).trans live)]
      exact unfinished_new new (.answer call)
    exact ⟨_, _, _, rfl, begun.trans attached, .calls _, .answers _ _ (Nat.le_of_eq size.symm) answers⟩

/-- What a completion does when its debounce has ended. -/
inductive Decides (env : Environment) (run : Run) (old : Engine) (outcome : Outcome) : Step → Prop where
  | asks (o : Orchestrator) (call : Call) (new : Engine) (target : Nat) (phase : Phase)
    (passed : outcome = .value (.truth true)) (live : old.isLive run = true)
    (found : old.orchestrators[run.orchestrator]? = some o)
    (selected : o.model ≠ [] ∧ call.model = some o.model)
    (silent : Silent ((old.setStage run.orchestrator .generating).emit
      (.asked run.request old.loop.now call)) new) (outset : Outset run phase)
    (made : call = callFor o.settings o.model
      (Prompt.ofPlace o.settings run.facts run.document run.position)) 
    (handed : Handed new call old.loop.futures.length phase) :
    Decides env run old outcome (new, .wait target phase)
  | unselected (o : Orchestrator) (passed : outcome = .value (.truth true)) (live : old.isLive run = true)
    (found : old.orchestrators[run.orchestrator]? = some o) (none : o.model = []) :
    Decides env run old outcome ((old.notify .noModel).endRun run (.value .nothing))
  | stops (result : Outcome) (same : result = outcome ∧ (∀ v, outcome ≠ .value v) ∨ result = .value .nothing)
    (why : outcome ≠ .value (.truth true) ∨ old.isLive run = false) :
    Decides env run old outcome (old.endRun run result)

theorem decides_afterDebounce (env : Environment) (run : Run) (engine : Engine) (outcome : Outcome) :
    Decides env run engine outcome (engine.afterDebounce env run outcome) := by
  unfold afterDebounce
  split
  · next o live found =>
    split
    · next empty => exact .unselected o rfl live found (List.isEmpty_iff.mp empty)
    · next given =>
      have live' : (engine.setStage run.orchestrator .generating).isLive run = true :=
        ((kept_modifyOrchestrator engine _ _ fun _ => by rfl).isLive run).trans live
      obtain ⟨new, target, phase, waits, silent, outset, handed⟩ :=
        generate_waits env live' (callFor o.settings o.model
          (Prompt.ofPlace o.settings run.facts run.document run.position))
      have selected : o.model ≠ [] := fun none => given (List.isEmpty_iff.mpr none)
      exact waits ▸ .asks o _ new target phase rfl live found ⟨selected, rfl⟩ silent outset rfl handed
  · next v mismatch =>
    refine .stops _ (Or.inr rfl) (Decidable.or_iff_not_imp_left.mpr fun passed => ?_)
    have passed : v = .truth true := Outcome.value.inj (Decidable.not_not.mp passed)
    cases found : engine.orchestrators[run.orchestrator]? with
    | none => simp [isLive, isCurrent, found]
    | some o => exact Bool.eq_false_iff.mpr fun live => mismatch o live found passed
  · next valueless _ => exact .stops _ (Or.inl ⟨rfl, valueless⟩) (Or.inl (valueless _))

/-- Whoever decides plays. -/
theorem Decides.played {outcome : Outcome} {step : Step} (decides : Decides env run old outcome step)
    (calm : ∀ failure, outcome ≠ .failed failure) : Played env run old step := by
  cases decides with
  | asks o call new target phase passed live found selected silent outset =>
    have entered : Deed env run old (old.setStage run.orchestrator .generating) :=
      .enters old .generating live (Or.inr rfl)
    have found' : (old.setStage run.orchestrator .generating).orchestrators[run.orchestrator]? =
        some { o with stage := .generating } := by
      simp [setStage, modifyOrchestrator, found]
    have asked : Deed env run (old.setStage run.orchestrator .generating) _ :=
      .asks _ _ call ((entered.kept.isLive run).trans live) found' selected.2
    exact .of_deeds (.single entered) (.of_deeds (.single asked)
      (.waits new target phase (.single (.aside silent)) outset.works))
  | unselected o passed live =>
    exact .of_deeds (.single (.notifies old .noModel live)) (played_endRun fun _ => Outcome.dull_nothing)
  | stops result same =>
    refine played_endRun fun _ => ?_
    rcases same with ⟨rfl, valueless⟩ | rfl
    · cases result with
      | value v => exact absurd rfl (valueless v)
      | failed failure => exact absurd rfl (calm failure)
      | cancelled => exact Or.inr (Or.inl rfl)
    · exact Outcome.dull_nothing

/-! The debounce. -/

/-- An answer of a debounce, as its owner gets it. -/
structure Answers (run : Run) (old : Engine) (answer : Engine × Debounced) : Prop where
  silent : Silent old answer.1
  waits : ∀ target phase, answer.2 = .waiting target phase → phase.run? = some run
  calm : ∀ failure, answer.2 ≠ .ended (.failed failure)

theorem played_deliver (env : Environment) {answer : Engine × Debounced}
    (answers : Answers run old answer) : Played env run old (deliver env (some run) answer) := by
  obtain ⟨silent, waits, calm⟩ := answers
  obtain ⟨new, answer⟩ := answer
  cases answer with
  | waiting target phase => exact .waits new target phase (.single (.aside silent)) (waits _ _ rfl)
  | ended outcome =>
    refine .of_aside silent ((decides_afterDebounce env run new outcome).played fun failure failed => ?_)
    exact calm failure (congrArg _ failed)

theorem answers_ended (silent : Silent old new) {outcome : Outcome}
    (calm : ∀ failure, outcome ≠ .failed failure) : Answers run old (new, .ended outcome) :=
  ⟨silent, fun _ _ same => by (cases same),
    fun failure failed => calm failure (Debounced.ended.inj failed)⟩

theorem answers_waiting (silent : Silent old new) {phase : Phase} (works : phase.run? = some run)
    (target : Nat) : Answers run old (new, .waiting target phase) :=
  ⟨silent, fun _ _ same => by (cases same; exact works), fun _ same => by (cases same)⟩

theorem answers_startDebounce (engine : Engine) (run : Run) (delay : Nat) :
    Answers run engine (engine.startDebounce run.request delay (some run)) := by
  unfold startDebounce
  split
  · exact answers_ended (.refl engine) nofun
  · split
    · exact answers_ended (.refl engine) nofun
    · dsimp only
      have added : Silent engine engine.addFuture.2 := aside_addFuture engine
      have bare := Loop.bare_addFuture engine.loop
      have timed : Silent engine.addFuture.2 (engine.addFuture.2.withLoop
          (·.setTimer delay engine.loop.futures.length)) :=
        aside_withLoop (steady_grown (Loop.grown_setTimer bare delay))
      have spawned : Silent _ ((engine.addFuture.2.withLoop
          (·.setTimer delay engine.loop.futures.length)).spawn (.watch run.request)).2 :=
        aside_spawn _ nofun
      refine answers_waiting (((added.trans timed).trans spawned).trans ?_) rfl _
      refine aside_withLoop (steady_grown (Loop.grown_watch ?_ _))
      exact (Loop.bare_spawn _ _).mpr ((Loop.grown_setTimer bare delay).bare bare)

theorem answers_unwindWatch (engine : Engine) (run : Run) (watch : Nat) (timedOut : Bool) :
    Answers run engine (engine.unwindWatch watch timedOut (some run)) := by
  unfold unwindWatch
  dsimp only
  have added : Silent engine engine.addFuture.2 := aside_addFuture engine
  have bare := Loop.bare_addFuture engine.loop
  have watched : Silent engine.addFuture.2 (engine.addFuture.2.withLoop
      (·.watch watch (.release engine.loop.futures.length))) :=
    aside_withLoop (steady_grown (Loop.grown_watch bare watch))
  refine answers_waiting ((added.trans watched).trans ?_) rfl _
  exact aside_withLoop (steady_cancel _ watch)

theorem answers_resumeDebounce (engine : Engine) (run : Run) (watch : Nat) (outcome : Outcome)
    (calm : ∀ failure, engine.loop.outcome? watch ≠ some (.failed failure)) :
    Answers run engine (engine.resumeDebounce watch (some run) outcome) := by
  unfold resumeDebounce
  split
  · refine answers_ended (.refl engine) fun failure => ?_
    have calm := calm failure
    unfold watchOutcome
    split
    · nofun
    · next o _ same =>
      intro same
      subst same
      exact calm same
    · nofun
  · exact answers_unwindWatch engine run watch _

theorem answers_resumeUnwinding (engine : Engine) (run : Run) (watch : Nat) (timedOut : Bool)
    (outcome : Outcome) :
    Answers run engine (engine.resumeUnwinding watch timedOut outcome) := by
  unfold resumeUnwinding
  split
  · exact answers_ended (.refl engine) nofun
  · exact answers_ended (.refl engine) nofun

/-! A completion goes on. -/

/-- From whichever phase it waits in, a completion goes on by its deeds. -/
theorem played_resume (env : Environment) {phase : Phase} (works : phase.run? = some run)
    (calm : ∀ watch owner, phase = .debouncing watch owner →
      ∀ failure, engine.loop.outcome? watch ≠ some (.failed failure)) (outcome : Outcome) :
    Played env run engine (engine.resume env phase outcome) := by
  unfold Phase.run? at works
  split at works
  · next watch owner =>
    cases works
    exact played_deliver env (answers_resumeDebounce engine run watch outcome (calm watch _ rfl))
  · next watch timedOut owner =>
    cases works
    exact played_deliver env (answers_resumeUnwinding engine run watch timedOut outcome)
  · cases works
    exact (pursues_resume env rfl rfl engine outcome).played
  · cases works
    exact (pursues_resume env rfl rfl engine outcome).played
  · cases works
    exact (pursues_resume env rfl rfl engine outcome).played
  · cases works

/-! A completion begins. -/

/-- A request that is answered at once ends so, whatever stage it passes. -/
theorem endRun_setStage (engine : Engine) (stage : Stage) (live : engine.isLive run = true)
    (outcome : Outcome) :
    (engine.setStage run.orchestrator stage).endRun run outcome = engine.endRun run outcome := by
  have live' : (engine.setStage run.orchestrator stage).isLive run = true :=
    ((kept_modifyOrchestrator engine _ _ fun _ => by rfl).isLive run).trans live
  unfold endRun
  rw [if_pos live', if_pos live]
  simp only [setStage, modifyOrchestrator, List.modify_modify_eq]
  rfl

/-- A request that has begun is answered at once, or its debounce begins. -/
inductive Opened (env : Environment) (run : Run) (old : Engine) : Step → Prop where
  | answered (new : Engine) (result : Outcome) (deeds : Deeds env run old new) :
    Opened env run old (new.endRun run result)
  | debounced (new : Engine) (step : Step) (deeds : Deeds env run old new)
    (played : Played env run (new.setStage run.orchestrator .debouncing) step) :
    Opened env run old step

theorem opened_lookUp (env : Environment) (live : engine.isLive run = true) {o : Orchestrator}
    (found : engine.orchestrators[run.orchestrator]? = some o) :
    Opened env run engine (match engine.lookUp env run o.cache with
      | (some entry, engine) => (engine.setStage run.orchestrator .cacheHit).endRun run
          (.value (run.insertion entry.completion))
      | (none, engine) => engine.awaitDebounce env run o.settings) := by
  have looked : Deed env run engine (engine.lookUp env run o.cache).2 :=
    .consults engine o live found
  have live := (looked.kept.isLive run).trans live
  split
  · next entry new same =>
    rw [same] at looked live
    rw [endRun_setStage new .cacheHit live]
    exact .answered new _ (.single looked)
  · next new same =>
    rw [same] at looked live
    refine .debounced new _ (.single looked) ?_
    unfold awaitDebounce
    dsimp only
    split
    · refine .ends _ _ .refl fun stale => ?_
      have kept : Kept new (new.setStage run.orchestrator .debouncing) :=
        kept_modifyOrchestrator new _ _ fun _ => by rfl
      cases stale.symm.trans ((kept.isLive run).trans live)
    · exact played_deliver env (answers_startDebounce ..)

theorem opened_startCompletion (env : Environment) {orchestrator : Nat} {o : Orchestrator}
    (found : (engine.beginRequest orchestrator).2.orchestrators[orchestrator]? = some o)
    (document : Document) (position : Position)
    (live : (engine.beginRequest orchestrator).2.isLive (Run.entering env o.settings orchestrator
      (engine.beginRequest orchestrator).1 document position) = true) :
    Opened env (Run.entering env o.settings orchestrator (engine.beginRequest orchestrator).1
        document position) (engine.beginRequest orchestrator).2
      (engine.startCompletion env orchestrator document position) := by
  unfold startCompletion
  simp only [found]
  exact opened_lookUp env live found

/-- Either way a live request has played. -/
theorem Opened.played {step : Step} (opened : Opened env run old step)
    (live : old.isLive run = true) : Played env run old step := by
  cases opened with
  | answered new result deeds =>
    refine .ends new result deeds fun stale => ?_
    cases stale.symm.trans (((Deeds.kept deeds).isLive run).trans live)
  | debounced new step deeds played =>
    have entered : Deed env run new (new.setStage run.orchestrator .debouncing) :=
      .enters new .debouncing (((Deeds.kept deeds).isLive run).trans live) (Or.inl rfl)
    exact .of_deeds (deeds.tail entered) played

end Engine

end InlineCompletion
