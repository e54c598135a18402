import InlineCompletion.Proofs.Engine.Debounces

/-!
The points at which the course of a completion is decided: the look into the cache, the answer of its
debounce, and what its call comes to. The latter is the outcome of a single call, or what the reading of
a stream and then its closing come to.
-/

namespace InlineCompletion

/-- A stream is closed. What goes wrong then takes the place of what its reading came to. -/
def Outcome.closed (reading closing : Outcome) : Outcome :=
  match closing with
  | .value _ => reading
  | other => other

/-- What a closed source says at last; nothing yet while the gate holds it back. -/
def Source.farewell? (source : Source) (client : Client) : Option Outcome :=
  if !source.closable then some (.value .nothing)
  else
    match client.pull source.farewell with
    | (.ended (.failed failure), _) => some (.failed failure)
    | (.ended _, _) => some (.value .nothing)
    | (.blocked, _) => none

/-- How the closing of a stream ends. -/
def Source.closing? (source : Source) (client : Client) : Option Outcome :=
  if source.closable && source.busy then some (.failed closeOverlap) else source.farewell? client

namespace Stream

/-- What the reading of a stream comes to with the end of a read, unless it goes on. -/
def reading? (stream : Stream) (pieces : List Text) : Outcome → Option Outcome
  | .value (.text t) =>
    if stream.aborted then some (.failed streamAborted)
    else if stream.closed then some (.value (.text (pieces ++ [t]).flatten))
    else none
  | .value .drained => some (.value (.text pieces.flatten))
  | .value v => some (.value v)
  | .failed failure => some (Engine.collected pieces (.failed failure))
  | .cancelled => some (if stream.aborted then .failed streamAborted else .cancelled)

end Stream

namespace Engine

variable {engine old new : Engine} {env : Environment} {run : Run} {id : Nat} {stream : Stream}
  {called : Option Outcome} {step : Step}

/-- What a completion knows of the reading of its stream when its task goes on from a phase. -/
def read? (engine : Engine) : Phase → Outcome → Option Outcome
  | .reading id (.completion _ pieces), outcome =>
    engine.streams[id]?.bind fun stream => stream.reading? pieces outcome
  | .closing _ (.completion _ reading), _ => some reading
  | _, _ => none

/-- What the call of a completion comes to when its task goes on from a phase; nothing yet while the
call is under way. -/
def called? (engine : Engine) : Phase → Outcome → Option Outcome
  | .calling call (some _), outcome =>
    some (if outcome = .cancelled ∧ call ∈ engine.client.abortedCalls then .failed callAborted else outcome)
  | .reading id (.completion _ pieces), outcome =>
    engine.streams[id]?.bind fun stream =>
      (stream.reading? pieces outcome).bind fun reading =>
        (stream.source.closing? engine.client).map reading.closed
  | .closing id (.completion _ reading), outcome =>
    engine.streams[id]?.bind fun stream =>
      (match outcome with
        | .value _ => stream.source.farewell? engine.client
        | other =>
          if engine.client.heedless then stream.source.farewell? engine.client
          else some other).map reading.closed
  | _, _ => none

/-- A completion waits on, or goes on with what its call came to. While it closes its stream it keeps
what its reading came to. -/
inductive Receives (env : Environment) (run : Run) (old : Engine) (read : Option Outcome) :
    Option Outcome → Step → Prop where
  | waits (new : Engine) (target : Nat) (phase : Phase) (silent : Silent old new)
    (works : phase.run? = some run)
    (keeps : ∀ id reading, phase = .closing id (.completion run reading) → read = some reading) :
    Receives env run old read none (new, .wait target phase)
  | ended (new : Engine) (outcome : Outcome) (silent : Silent old new) :
    Receives env run old read (some outcome) (new.afterCall env run outcome)

variable {read : Option Outcome}

theorem Receives.of_aside (silent : Silent old new) (receives : Receives env run new read called step) :
    Receives env run old read called step := by
  cases receives with
  | waits last target phase silent' works keeps =>
    exact .waits last target phase (silent.trans silent') works keeps
  | ended last outcome silent' => exact .ended last outcome (silent.trans silent')

theorem receives_afterClosing (env : Environment) (run : Run) (engine : Engine)
    (reading closing : Outcome) : Receives env run engine read (some (reading.closed closing))
      (engine.afterClosing env (.completion run reading) closing) := by
  cases closing with
  | value v => exact .ended engine reading (.refl engine)
  | failed failure => exact .ended engine (.failed failure) (.refl engine)
  | cancelled => exact .ended engine .cancelled (.refl engine)

theorem receives_deliverFarewell (env : Environment) (run : Run) (id : Nat) (reading : Outcome)
    {answer : Option Outcome × Engine} (silent : Silent engine answer.2) :
    Receives env run engine (some reading) (answer.1.map reading.closed)
      (deliverFarewell env id (.completion run reading) answer) := by
  obtain ⟨closing, new⟩ := answer
  refine .of_aside silent ?_
  cases closing with
  | some closing => exact receives_afterClosing env run new reading closing
  | none =>
    refine .waits _ _ _ (aside_awaitGate new (.closing id (.completion run reading))) rfl fun _ _ same => ?_
    cases same
    rfl

theorem farewell?_of_bidFarewell (known : engine.streams[id]? = some stream) :
    (engine.bidFarewell id).1 = stream.source.farewell? engine.client := by
  unfold bidFarewell Source.farewell?
  simp only [known]
  split
  · rfl
  · cases engine.client.pull stream.source.farewell with
    | mk pulled rest =>
      cases pulled with
      | blocked => rfl
      | ended outcome => cases outcome <;> rfl

/-- What a source says goes by the manner of the client. -/
theorem pull_of_manner {client other : Client} (same : client.manner = other.manner)
    (actions : List SourceAction) : client.pull actions = other.pull actions := by
  obtain ⟨-, failure, -, gate⟩ : client.replies = other.replies ∧ client.failure = other.failure ∧
      client.heedless = other.heedless ∧ client.gateOpen = other.gateOpen := by
    simpa [Client.manner] using same
  induction actions with
  | nil => rfl
  | cons action rest ih => cases action <;> simp only [Client.pull, failure, gate, ih]

/-- The source of a stream and the manner of the client stay while its reader lets go of it. -/
structure Leaves (id : Nat) (stream : Stream) (old new : Engine) : Prop where
  silent : Silent old new
  manner : new.client.manner = old.client.manner
  kept : ∃ found, new.streams[id]? = some found ∧ found.source = stream.source

theorem Leaves.closing? (leaves : Leaves id stream old new) : ∃ found, new.streams[id]? = some found ∧
    found.source.closing? new.client = stream.source.closing? old.client := by
  obtain ⟨found, known, source⟩ := leaves.kept
  refine ⟨found, known, ?_⟩
  unfold Source.closing? Source.farewell?
  rw [source, pull_of_manner leaves.manner]

theorem leaves_finishStream (known : engine.streams[id]? = some stream) :
    Leaves id stream engine (engine.finishStream id) := by
  refine ⟨aside_finishStream engine id, (ebb_finishStream engine id).manner, ?_⟩
  unfold finishStream
  simp only [known]
  split
  · exact ⟨stream, known, rfl⟩
  · split
    · exact ⟨_, stream_modifyStream engine id _ known, rfl⟩
    · exact ⟨_, stream_modifyStream engine id _ known, rfl⟩

theorem receives_closeFor (env : Environment) (run : Run) (known : engine.streams[id]? = some stream)
    (reading : Outcome) : Receives env run engine (some reading)
      ((stream.source.closing? engine.client).map reading.closed)
      (engine.closeFor env id (.completion run reading)) := by
  have finished := leaves_finishStream known
  obtain ⟨found, known', source⟩ := finished.kept
  have bids {new : Engine} (silent : Silent engine new) (manner : new.client.manner = engine.client.manner)
      {found : Stream} (known : new.streams[id]? = some found)
      (same : found.source.closable = stream.source.closable ∧
        found.source.farewell = stream.source.farewell) :
      Receives env run engine (some reading) ((stream.source.farewell? engine.client).map reading.closed)
        (deliverFarewell env id (.completion run reading) (new.bidFarewell id)) := by
    have receives := receives_deliverFarewell env run id reading (aside_bidFarewell new id)
    rw [farewell?_of_bidFarewell known] at receives
    unfold Source.farewell? at receives ⊢
    rw [same.1, same.2, pull_of_manner manner] at receives
    exact .of_aside silent receives
  unfold closeFor closeStream Source.closing?
  simp only [known]
  cases closable : stream.source.closable with
  | false => exact bids finished.silent finished.manner known' (by rw [source]; exact ⟨rfl, rfl⟩)
  | true =>
    cases busy : stream.source.busy with
    | true => exact .of_aside finished.silent (receives_afterClosing env run _ reading (.failed closeOverlap))
    | false =>
      have sealed : Silent (engine.finishStream id) ((engine.finishStream id).modifySource id fun source =>
          { source with opening := none, actions := [] }) := aside_modifySource ..
      refine bids (finished.silent.trans sealed) finished.manner
        (stream_modifyStream (engine.finishStream id) id _ known') ?_
      rw [source]
      exact ⟨rfl, rfl⟩

/-- A reader lets go of its stream, and closes it. -/
theorem Leaves.receives (env : Environment) (run : Run) (leaves : Leaves id stream old new)
    (reading : Outcome) : Receives env run old (some reading)
      ((stream.source.closing? old.client).map reading.closed)
        (new.closeFor env id (.completion run reading)) := by
  obtain ⟨found, known, same⟩ := leaves.closing?
  exact .of_aside leaves.silent (same ▸ receives_closeFor env run known reading)

theorem receives_resumeReading (env : Environment) (run : Run) (known : engine.streams[id]? = some stream)
    (pieces : List Text) (outcome : Outcome) :
    Receives env run engine (stream.reading? pieces outcome)
      ((stream.reading? pieces outcome).bind fun reading =>
        (stream.source.closing? engine.client).map reading.closed)
      (engine.resumeReading env id (.completion run pieces) outcome) := by
  have known' := stream_modifyStream engine id (fun s => { s with pending := none }) known
  have free : Leaves id stream engine (engine.modifyStream id fun s => { s with pending := none }) :=
    ⟨aside_modifyStream .., rfl, _, known', rfl⟩
  have finished : Leaves id stream engine
      ((engine.modifyStream id fun s => { s with pending := none }).finishStream id) := by
    have last := leaves_finishStream known'
    exact ⟨free.silent.trans last.silent, last.manner, last.kept⟩
  unfold resumeReading endRead
  cases outcome with
  | cancelled =>
    simp only [known, Option.any_some]
    cases aborted : stream.aborted with
    | true =>
      have other : streamAborted ≠ streamEnded := by decide
      simpa [Stream.reading?, aborted, afterStream, collected, other] using
        free.receives env run (.failed streamAborted)
    | false =>
      simpa [Stream.reading?, aborted, afterStream, collected] using free.receives env run .cancelled
  | failed failure => exact finished.receives env run (collected pieces (.failed failure))
  | value v =>
    cases v with
    | nothing | truth b => exact free.receives env run _
    | drained => exact finished.receives env run (.value (.text pieces.flatten))
    | text t =>
      have begun : Silent _ ((engine.modifyStream id fun s => { s with pending := none }).beginRead id).2 :=
        aside_beginRead ..
      unfold readFor
      simp only [Stream.reading?]
      unfold beginRead at begun ⊢
      simp only [known'] at begun ⊢
      cases aborted : stream.aborted with
      | true => exact free.receives env run _
      | false =>
        cases closed : stream.closed with
        | true => exact free.receives env run _
        | false =>
          simp only [aborted, closed] at begun ⊢
          exact .waits _ _ _ (free.silent.trans begun) rfl nofun

/-- From whichever phase it waits in for its call, a completion goes on by what that came to. -/
theorem receives_resume (env : Environment) {phase : Phase} (works : phase.run? = some run)
    (asked : phase.asked = true)
    (there : ∀ id, .stream id ∈ phase.belongings → ∃ stream, engine.streams[id]? = some stream)
    (outcome : Outcome) :
    Receives env run engine (engine.read? phase outcome) (engine.called? phase outcome)
      (engine.resume env phase outcome) := by
  unfold Phase.asked at asked
  split at asked
  · next call owner =>
    cases works
    have ended : Silent engine (engine.endCall call outcome).2 := aside_endCall engine call outcome
    have same : (engine.endCall call outcome).1 =
        if outcome = .cancelled ∧ call ∈ engine.client.abortedCalls then .failed callAborted
        else outcome := by
      simp [endCall]
    show Receives env run engine none (some _) ((engine.endCall call outcome).2.afterCall env run
      (engine.endCall call outcome).1)
    rw [← same]
    exact .ended _ _ ended
  · next id run' pieces =>
    cases works
    obtain ⟨stream, known⟩ := there id (by simp [Phase.belongings])
    simp only [read?, called?, known, Option.bind_some]
    exact receives_resumeReading env run known pieces outcome
  · next id run' reading =>
    cases works
    obtain ⟨stream, known⟩ := there id (by simp [Phase.belongings])
    have receives := receives_deliverFarewell env run id reading (aside_resumeFarewell engine id outcome)
    have bids := farewell?_of_bidFarewell known
    simp only [called?, known, Option.bind_some]
    cases outcome with
    | value v => exact bids ▸ receives
    | failed | cancelled =>
      unfold resumeFarewell at receives
      show Receives _ _ _ _ _ (deliverFarewell _ _ _ (engine.resumeFarewell id _))
      unfold resumeFarewell
      cases heedless : engine.client.heedless with
      | true => simpa [read?, heedless, bids] using receives
      | false => simpa [read?, heedless] using receives
  · cases asked

/-! The debounce. -/

/-- What the debounce of a completion answers when its task goes on from a phase; nothing yet while its
watch is to be waited for. -/
def debounced? (engine : Engine) : Phase → Outcome → Option Outcome
  | .debouncing watch _, _ =>
    if engine.loop.isDone watch then some (watchOutcome (engine.loop.outcome? watch)) else none
  | .unwinding watch timedOut _, outcome =>
    some (if outcome = .cancelled ∨ timedOut = false then .cancelled
      else .value (.truth (engine.loop.outcome? watch = some .cancelled)))
  | _, _ => none

/-- A completion waits for the end of its watch, or goes on with the answer of its debounce. -/
inductive Weighs (env : Environment) (run : Run) (old : Engine) : Option Outcome → Step → Prop where
  | waits (new : Engine) (target watch : Nat) (timedOut : Bool) (silent : Silent old new) :
    Weighs env run old none (new, .wait target (.unwinding watch timedOut (some run)))
  | decides (answer : Outcome) (step : Step) (decides : Decides env run old answer step) :
    Weighs env run old (some answer) step

/-- Before its call a completion goes on by the answer of its debounce. -/
theorem weighs_resume (env : Environment) {phase : Phase} (works : phase.run? = some run)
    (unasked : phase.asked = false) (outcome : Outcome) :
    Weighs env run engine (engine.debounced? phase outcome) (engine.resume env phase outcome) := by
  cases phase with
  | debouncing watch owner =>
    cases works
    show Weighs _ _ _ _ (deliver env (some run) (engine.resumeDebounce watch (some run) outcome))
    unfold resumeDebounce
    simp only [debounced?]
    split
    · exact .decides _ _ (decides_afterDebounce ..)
    · have unwound := answers_unwindWatch engine run watch (outcome ≠ .cancelled)
      exact .waits _ _ watch _ unwound.silent
  | unwinding watch timedOut owner =>
    cases works
    show Weighs _ _ _ _ (deliver env (some run) (engine.resumeUnwinding watch timedOut outcome))
    unfold resumeUnwinding
    simp only [debounced?]
    by_cases early : outcome = .cancelled ∨ timedOut = false
    · have given : (decide (outcome = .cancelled) || !timedOut) = true := by simpa using early
      rw [if_pos given, if_pos early]
      exact .decides _ _ (decides_afterDebounce ..)
    · have given : ¬(decide (outcome = .cancelled) || !timedOut) = true := by simpa using early
      rw [if_neg given, if_neg early]
      exact .decides _ _ (decides_afterDebounce ..)
  | calling call owner =>
    cases works
    cases unasked
  | reading id consumer =>
    cases consumer with
    | completion => cases unasked
    | next | collect => cases works
  | closing id closer =>
    cases closer with
    | completion => cases unasked
    | outside => cases works
  | start | watching | answering | pulling => cases works

/-! The look into the cache. -/

/-- A completion that begins is answered from the cache. Or its delay is no number, or it waits out its
delay, or it goes on at once. -/
inductive Enters (env : Environment) (run : Run) (settings : Settings) (cache : Cache Float) (old : Engine) :
    Step → Prop where
  | hit (entry : CacheEntry Float) (found : (old.lookUp env run cache).1 = some entry) :
    Enters env run settings cache old
      ((old.lookUp env run cache).2.endRun run (.value (run.insertion entry.completion)))
  | overflows (missed : (old.lookUp env run cache).1 = none) (overflows : settings.debounceOverflows = true) :
    Enters env run settings cache old
      ((old.lookUp env run cache).2.endRun run (.failed Settings.delayOverflow))
  | waits (missed : (old.lookUp env run cache).1 = none) (fits : settings.debounceOverflows = false)
    (delayed : settings.delay ≠ 0) (new : Engine) (waiter watch : Nat)
    (silent : Silent ((old.lookUp env run cache).2.setStage run.orchestrator .debouncing) new) :
    Enters env run settings cache old (new, .wait waiter (.debouncing watch (some run)))
  | decides (missed : (old.lookUp env run cache).1 = none) (fits : settings.debounceOverflows = false)
    (undelayed : settings.delay = 0) (step : Step)
    (decides : Decides env run ((old.lookUp env run cache).2.setStage run.orchestrator .debouncing)
      (.value (.truth true)) step) : Enters env run settings cache old step

theorem enters_lookUp (env : Environment) (live : engine.isLive run = true) {o : Orchestrator}
    (found : engine.orchestrators[run.orchestrator]? = some o) :
    Enters env run o.settings o.cache engine (match engine.lookUp env run o.cache with
      | (some entry, engine) => (engine.setStage run.orchestrator .cacheHit).endRun run
          (.value (run.insertion entry.completion))
      | (none, engine) => engine.awaitDebounce env run o.settings) := by
  have looked : Deed env run engine (engine.lookUp env run o.cache).2 := .consults engine o live found
  have live' := (looked.kept.isLive run).trans live
  cases same : engine.lookUp env run o.cache with
  | mk entry new =>
    have there : (engine.lookUp env run o.cache).2 = new := congrArg Prod.snd same
    rw [there] at live'
    cases entry with
    | some entry =>
      dsimp only
      rw [endRun_setStage new .cacheHit live', ← there]
      exact .hit entry (congrArg Prod.fst same)
    | none =>
      have missed : (engine.lookUp env run o.cache).1 = none := congrArg Prod.fst same
      have waiting : (new.setStage run.orchestrator .debouncing).isLive run = true :=
        ((kept_modifyOrchestrator new _ _ fun _ => by rfl).isLive run).trans live'
      unfold awaitDebounce
      cases fits : o.settings.debounceOverflows with
      | true =>
        dsimp only
        rw [if_pos rfl, endRun_setStage new .debouncing live', ← there]
        exact .overflows missed fits
      | false =>
        have waits := answers_startDebounce (new.setStage run.orchestrator .debouncing) run o.settings.delay
        show Enters _ _ _ _ _
          (deliver env (some run) ((new.setStage run.orchestrator .debouncing).startDebounce
          run.request o.settings.delay (some run)))
        unfold startDebounce at waits ⊢
        rw [not_isCancelled_of_isLive waiting] at waits ⊢
        by_cases undelayed : o.settings.delay = 0
        · simp only [undelayed, if_true]
          exact .decides missed fits undelayed _ (there ▸ decides_afterDebounce ..)
        · simp only [undelayed, if_false] at waits ⊢
          exact .waits missed fits undelayed _ _ _ (there ▸ waits.silent)

/-- The first turn of a completion whose orchestrator is there. -/
theorem enters_startCompletion (env : Environment) {touched : Nat → Prop} {running : Option (Nat × Outcome)}
    (coherent : engine.Coherent touched running) {orchestrator : Nat} {o : Orchestrator}
    (found : engine.orchestrators[orchestrator]? = some o) (document : Document) (position : Position) :
    Enters env (Run.entering env o.settings orchestrator engine.requests.length document position)
      o.settings o.cache (engine.beginRequest orchestrator).2
      (engine.startCompletion env orchestrator document position) := by
  obtain ⟨newest, succeeds⟩ := succeeds_beginRequest coherent found
  have found' : (engine.beginRequest orchestrator).2.orchestrators[orchestrator]? =
      some { o.retired with current := some engine.requests.length } := by
    simp [succeeds.orchestrators, found]
  have live : (engine.beginRequest orchestrator).2.isLive (Run.entering env o.settings orchestrator
      engine.requests.length document position) = true := succeeds.isLive found rfl rfl
  unfold startCompletion
  simp only [found']
  rw [newest]
  have enters := @enters_lookUp (engine.beginRequest orchestrator).2 (Run.entering env o.settings orchestrator
    engine.requests.length document position) env live _ found'
  exact enters

end Engine

end InlineCompletion
