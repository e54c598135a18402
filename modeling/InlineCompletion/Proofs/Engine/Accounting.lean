import InlineCompletion.Proofs.Engine.Tally

/-!
What one turn does to the books of the client. A task awaits at most one call, which begins right
before, and a completion that leaves a stream has closed it.
-/

namespace InlineCompletion.Engine

open Loop (Grown)

variable {engine old new : Engine} {env : Environment} {hit : Belonging → Prop}
  {reads : Option Nat} {run : Run}

/-- No call begins, and the stream that was read is read again or closed. -/
structure Minded (hit : Belonging → Prop) (reads : Option Nat) (old : Engine) (step : Step) : Prop where
  tallied : Tallied hit old step.1
  idle : ∀ phase, step.2.phase? = some phase → phase.calls? = none
  left : ∀ id, reads = some id → step.1.Closed id ∨ step.2.phase?.bind Phase.reads? = some id

namespace Minded

theorem from_tallied {step : Step} (tallied : Tallied hit old new) (minded : Minded hit reads new step) :
    Minded hit reads old step :=
  ⟨tallied.trans minded.tallied, minded.idle, minded.left⟩

theorem of_done (tallied : Tallied hit old new) (outcome : Outcome) :
    Minded hit none old (new, .done outcome) :=
  ⟨tallied, (fun _ same => nomatch same), fun _ same => nomatch same⟩

theorem of_wait (tallied : Tallied hit old new) (target : Nat) {phase : Phase}
    (idle : phase.calls? = none) : Minded hit none old (new, .wait target phase) :=
  ⟨tallied, fun _ same => Option.some.inj same ▸ idle, fun _ same => nomatch same⟩

/-- Once the stream is closed there is nothing left to mind. -/
theorem of_closed {step : Step} (minded : Minded hit none old step)
    (closed : ∀ id, reads = some id → old.Closed id) : Minded hit reads old step :=
  ⟨minded.tallied, minded.idle, fun id mine => Or.inl (minded.tallied.closed (closed id mine))⟩

end Minded

/-! Steps of the tasks that work for others. -/

theorem tallied_modifySource (engine : Engine) (id : Nat) (f : Source → Source) :
    Tallied hit engine (engine.modifySource id f) :=
  .of_alike (alike_modifySource engine id f)

theorem minded_awaitGate (tallied : Tallied hit old engine) {phase : Phase}
    (idle : phase.calls? = none) : Minded hit none old (engine.awaitGate phase) :=
  .of_wait (tallied.trans (tallied_awaitGate engine phase)) _ idle

theorem minded_startWatch (engine : Engine) (request : Nat) :
    Minded hit none engine (engine.startWatch request) := by
  have timely := timely_startWatch engine request
  unfold startWatch at timely ⊢
  split
  · exact .of_done (.refl engine) _
  · next going =>
    rw [if_neg going] at timely
    refine .of_wait ?_ _ rfl
    have added := Loop.grown_addFuture engine.loop
    have bare := Loop.bare_addFuture engine.loop
    refine .of_same timely (fun _ => (steady_addFuture engine).to_same rfl) (fun released => ?_) rfl rfl rfl
      rfl fun id known => ?_
    · refine released.of_bare (released.lone.grown added) (fun _ => added.bare) (fun _ => Or.inl)
        fun id found known waiter member => ?_
      have known : (engine.requests.modify request fun r =>
          { r with waiters := r.waiters ++ [engine.loop.futures.length] })[id]? = some found := known
      rw [getElem?_modify] at known
      split at known
      · obtain ⟨before, known', rfl⟩ := Option.map_eq_some_iff.mp known
        rcases List.mem_append.mp member with early | late
        · exact Or.inr ⟨id, before, known', early⟩
        · cases List.mem_singleton.mp late
          exact Or.inl bare
      · exact Or.inr ⟨id, found, known, member⟩
    · exact attached_modifyRequest (fun _ => by rfl) id known

theorem minded_startAnswer (engine : Engine) (call : Call) :
    Minded hit none engine (engine.startAnswer call) := by
  have taken : Tallied hit engine (engine.takeReply call).2 := .of_alike (alike_takeReply engine call)
  unfold startAnswer
  dsimp only
  split
  · exact .of_done taken _
  · exact minded_awaitGate taken rfl

theorem minded_resumeAnswer (engine : Engine) (reply : Reply) (outcome : Outcome) :
    Minded hit none engine (engine.resumeAnswer reply outcome) := by
  unfold resumeAnswer
  split
  · exact .of_done (.refl engine) _
  · split
    · exact .of_done (.refl engine) _
    · split
      · exact .of_done (.refl engine) _
      · exact minded_awaitGate (.refl engine) rfl

theorem minded_pullSource (tallied : Tallied hit old engine) (id : Nat) :
    Minded hit none old (engine.pullSource id) := by
  unfold pullSource
  split
  · exact .of_done tallied _
  · split
    · exact .of_done (tallied.trans (tallied_modifySource ..)) _
    · exact minded_awaitGate (tallied.trans (tallied_modifySource ..)) rfl

theorem minded_startPull (engine : Engine) (id : Nat) : Minded hit none engine (engine.startPull id) := by
  unfold startPull
  split
  · exact .of_done (.refl engine) _
  · exact minded_pullSource (.of_alike (alike_openSource engine id)) id

theorem minded_resumePull (engine : Engine) (id : Nat) (outcome : Outcome) :
    Minded hit none engine (engine.resumePull id outcome) := by
  unfold resumePull
  split
  · exact minded_pullSource (.refl engine) id
  · split
    · exact minded_pullSource (.refl engine) id
    · exact .of_done (tallied_modifySource ..) _

/-! A completion whose work is done. -/

theorem minded_endRun (engine : Engine) (run : Run) (outcome : Outcome) :
    Minded hit none engine (engine.endRun run outcome) := by
  unfold endRun
  refine .of_done ?_ outcome
  split
  · exact .of_alike (alike_modifyOrchestrator ..)
  · exact .refl engine

theorem tallied_store (engine : Engine) (env : Environment) (run : Run) (completion : Text) :
    Tallied hit engine (engine.store env run completion) := by
  unfold store
  split
  · exact .refl engine
  · exact .of_alike ((alike_emit ..).trans (alike_modifyOrchestrator ..))

theorem minded_afterCall (env : Environment) (run : Run) (engine : Engine) (outcome : Outcome) :
    Minded hit none engine (engine.afterCall env run outcome) := by
  cases outcome with
  | cancelled => exact minded_endRun ..
  | failed failure =>
    unfold afterCall
    dsimp only
    split
    · exact minded_endRun ..
    · split
      · exact minded_endRun ..
      · exact .from_tallied (.of_alike (alike_emit engine _)) (minded_endRun ..)
  | value v =>
    unfold afterCall
    dsimp only
    split
    · unfold acceptReply
      split
      · exact minded_endRun ..
      · dsimp only
        split
        · exact minded_endRun ..
        · exact .from_tallied (tallied_store ..) (minded_endRun ..)
    · exact minded_endRun ..

theorem minded_afterClosing (env : Environment) (closer : Closer) (engine : Engine) (closing : Outcome) :
    Minded hit none engine (engine.afterClosing env closer closing) := by
  cases closer with
  | outside => exact .of_done (.refl engine) closing
  | completion run reading =>
    cases closing with
    | value v => exact minded_afterCall env run engine reading
    | failed failure => exact minded_afterCall env run engine (.failed failure)
    | cancelled => exact minded_afterCall env run engine .cancelled

theorem minded_deliverFarewell (env : Environment) (stream : Nat) (closer : Closer)
    {answer : Option Outcome × Engine} (tallied : Tallied hit old answer.2) :
    Minded hit none old (deliverFarewell env stream closer answer) := by
  obtain ⟨closing, new⟩ := answer
  cases closing with
  | some closing => exact .from_tallied tallied (minded_afterClosing env closer new closing)
  | none => exact minded_awaitGate tallied rfl

theorem tallied_resumeFarewell (engine : Engine) (id : Nat) (outcome : Outcome) :
    Tallied hit engine (engine.resumeFarewell id outcome).2 :=
  .of_alike (alike_resumeFarewell engine id outcome)

theorem tallied_closeStream (engine : Engine) (id : Nat) :
    Tallied hit engine (engine.closeStream id).2 ∧ (engine.closeStream id).2.Closed id := by
  have finished : Tallied hit engine (engine.finishStream id) := tallied_finishStream engine id
  have shut := closed_finishStream engine id
  unfold closeStream
  dsimp only
  split
  · exact ⟨finished, shut⟩
  · split
    · exact ⟨finished, shut⟩
    · split
      · exact ⟨finished, shut⟩
      · have emptied : Tallied hit (engine.finishStream id) _ := tallied_modifySource _ id fun source =>
          { source with opening := none, actions := [] }
        exact ⟨finished.trans emptied, emptied.closed shut⟩

theorem minded_closeFor (env : Environment) (engine : Engine) (stream : Nat) (closer : Closer) :
    Minded hit (some stream) engine (engine.closeFor env stream closer) := by
  have closes : Tallied hit engine (engine.closeStream stream).2 ∧ _ := tallied_closeStream engine stream
  obtain ⟨closed, shut⟩ := closes
  have mine (id : Nat) (same : some stream = some id) : (engine.closeStream stream).2.Closed id :=
    Option.some.inj same ▸ shut
  unfold closeFor
  split
  · next new same =>
    rw [same] at closed mine
    have parts : Minded hit none new (deliverFarewell env stream closer (new.bidFarewell stream)) :=
      minded_deliverFarewell env stream closer (.of_alike (alike_bidFarewell new stream))
    exact .from_tallied closed (parts.of_closed mine)
  · next failure new same =>
    rw [same] at closed mine
    exact .from_tallied closed ((minded_afterClosing ..).of_closed mine)

/-! Reading. -/

theorem tallied_freeStream (engine : Engine) (id : Nat) (pending : Option Nat) :
    Tallied hit engine (engine.modifyStream id fun s => { s with pending }) :=
  tallied_markStream engine id (fun _ => rfl) (fun _ => rfl) (fun _ => rfl) fun _ => Or.inl

theorem tallied_beginRead (engine : Engine) (id : Nat) : Tallied hit engine (engine.beginRead id).2 := by
  unfold beginRead
  split
  · exact .refl engine
  · split
    · exact .refl engine
    · split
      · exact .refl engine
      · have spawned : Tallied hit engine (engine.spawn (.pull id)).2 := tallied_spawn engine nofun
        exact spawned.trans (tallied_freeStream ..)

theorem minded_readFor (env : Environment) (run : Run) (engine : Engine) (stream : Nat)
    (pieces : List Text) : Minded hit (some stream) engine (engine.readFor env run stream pieces) := by
  have begun : Tallied hit engine (engine.beginRead stream).2 := tallied_beginRead engine stream
  unfold readFor
  generalize engine.beginRead stream = answer at begun
  obtain ⟨result, new⟩ := answer
  cases result with
  | ok read =>
    refine ⟨begun, fun phase same => ?_, fun id mine => Or.inr mine⟩
    cases same
    rfl
  | error failure => exact .from_tallied begun (minded_closeFor ..)

theorem minded_startNext (engine : Engine) (id : Nat) : Minded hit none engine (engine.startNext id) := by
  have begun : Tallied hit engine (engine.beginRead id).2 := tallied_beginRead engine id
  unfold startNext
  generalize engine.beginRead id = answer at begun
  obtain ⟨result, new⟩ := answer
  cases result with
  | ok read => exact .of_wait begun read rfl
  | error failure => exact .of_done begun _

theorem minded_startCollect (engine : Engine) (id : Nat) (pieces : List Text) :
    Minded hit none engine (engine.startCollect id pieces) := by
  have begun : Tallied hit engine (engine.beginRead id).2 := tallied_beginRead engine id
  unfold startCollect
  generalize engine.beginRead id = answer at begun
  obtain ⟨result, new⟩ := answer
  cases result with
  | ok read => exact .of_wait begun read rfl
  | error failure => exact .of_done begun _

theorem tallied_endRead (engine : Engine) (id : Nat) (outcome : Outcome) :
    Tallied hit engine (engine.endRead id outcome).2 := by
  have freed : Tallied hit engine (engine.modifyStream id fun s => { s with pending := none }) :=
    tallied_freeStream engine id none
  unfold endRead
  dsimp only
  split
  · split <;> exact freed
  · exact freed.trans (tallied_finishStream ..)
  · exact freed.trans (tallied_finishStream ..)
  · exact freed

theorem minded_resumeReading (env : Environment) (engine : Engine) (stream : Nat) (consumer : Consumer)
    (outcome : Outcome) : Minded hit (Phase.reading stream consumer).reads? engine
      (engine.resumeReading env stream consumer outcome) := by
  have read : Tallied hit engine (engine.endRead stream outcome).2 := tallied_endRead engine stream outcome
  unfold resumeReading
  generalize engine.endRead stream outcome = ended at read
  obtain ⟨seen, new⟩ := ended
  cases consumer with
  | next => exact .of_done read _
  | collect pieces =>
    cases seen with
    | cancelled | failed failure => exact .of_done read _
    | value v =>
      cases v with
      | text t => exact .from_tallied read (minded_startCollect ..)
      | nothing | truth b | drained => exact .of_done read _
  | completion run pieces =>
    cases seen with
    | cancelled | failed failure => exact .from_tallied read (minded_closeFor ..)
    | value v =>
      cases v with
      | text t => exact .from_tallied read (minded_readFor ..)
      | nothing | truth b | drained => exact .from_tallied read (minded_closeFor ..)

/-! Asking the client. -/

/-- The client has opened a stream, and a request was told of it. -/
def granted (engine : Engine) (request : Nat) (call : Call) : Engine :=
  (engine.openStream call).2.modifyRequest request fun r => { r with stream := some engine.streams.length }

/-- What a task does with the books: at most it opens one stream, which it minds, or begins one
call, which it awaits. -/
inductive Accounted (hit : Belonging → Prop) (reads : Option Nat) (old : Engine) (step : Step) : Prop where
  | minds (minded : Minded hit reads old step)
  | opens (middle : Engine) (request : Nat) (call : Call) (first : Tallied hit old middle)
    (second : Minded (fun _ => False) (some middle.streams.length) (middle.granted request call) step)
    (unread : reads = none)
  | calls (middle : Engine) (call : Call) (owner : Option Run) (first : Tallied hit old middle)
    (second : Tallied (fun _ => False) (middle.beginCall call).2 step.1)
    (loop : step.1.loop = (middle.beginCall call).2.loop)
    (waits : step.2 = .wait middle.loop.futures.length (.calling middle.loop.futures.length owner))
    (unread : reads = none)

theorem Accounted.from_tallied {step : Step} (tallied : Tallied hit old new)
    (accounted : Accounted hit reads new step) : Accounted hit reads old step := by
  cases accounted with
  | minds minded => exact .minds (.from_tallied tallied minded)
  | opens middle request call first second unread =>
    exact .opens middle request call (tallied.trans first) second unread
  | calls middle call owner first second loop waits unread =>
    exact .calls middle call owner (tallied.trans first) second loop waits unread

/-- What a request is told of that is not cancelled is not stopped. -/
theorem accounted_generate (env : Environment) (run : Run) (engine : Engine) (call : Call)
    (going : engine.isCancelled run.request = false) :
    Accounted hit none engine (engine.generate env run call) := by
  let asked := engine.emit (.asked run.request engine.loop.now call)
  have told : Tallied hit engine asked := .of_alike (alike_emit engine _)
  unfold generate
  dsimp only
  split
  · have attached : (asked.openStream call).2.attachStream run.request asked.streams.length =
        asked.granted run.request call := if_neg (Bool.eq_false_iff.mp going)
    refine .opens asked run.request call told (.from_tallied ?_ (minded_readFor ..)) rfl
    show Tallied _ _ ((asked.openStream call).2.attachStream run.request asked.streams.length)
    rw [attached]
    exact .refl _
  · have attached : (asked.beginCall call).2.attachCall run.request asked.loop.futures.length =
        (asked.beginCall call).2.modifyRequest run.request fun r =>
          { r with call := some asked.loop.futures.length } := if_neg (Bool.eq_false_iff.mp going)
    have noted : Tallied (fun _ => False) (asked.beginCall call).2 _ :=
      tallied_modifyRequest _ run.request (f := fun r => { r with call := some asked.loop.futures.length })
        (fun _ => rfl) fun _ _ member => member
    refine .calls asked call (some run) told ?_ ?_ rfl rfl
    · show Tallied _ _ ((asked.beginCall call).2.attachCall run.request asked.loop.futures.length)
      rw [attached]
      exact noted
    · show ((asked.beginCall call).2.attachCall run.request asked.loop.futures.length).loop = _
      rw [attached]
      rfl

theorem accounted_afterDebounce (env : Environment) (run : Run) (engine : Engine) (outcome : Outcome) :
    Accounted hit none engine (engine.afterDebounce env run outcome) := by
  unfold afterDebounce
  split
  · next live _ =>
    split
    · exact .minds (.from_tallied (.of_alike (alike_emit engine _)) (minded_endRun ..))
    · have going : engine.isCancelled run.request = false := not_isCancelled_of_isLive live
      exact .from_tallied (.of_alike (alike_modifyOrchestrator engine _ _))
        (accounted_generate env run (engine.setStage run.orchestrator .generating) _ going)
  · exact .minds (minded_endRun ..)
  · exact .minds (minded_endRun ..)

theorem accounted_deliver (env : Environment) {owner : Option Run} {answer : Engine × Debounced}
    (tallied : Tallied hit old answer.1)
    (next : ∀ target phase, answer.2 = .waiting target phase → phase.calls? = none) :
    Accounted hit none old (deliver env owner answer) := by
  obtain ⟨new, answer⟩ := answer
  cases answer with
  | waiting target phase => exact .minds (.of_wait tallied target (next target phase rfl))
  | ended outcome =>
    cases owner with
    | none => exact .minds (.of_done tallied outcome)
    | some run => exact .from_tallied tallied (accounted_afterDebounce env run new outcome)

theorem tallied_startDebounce (engine : Engine) (request delay : Nat) (owner : Option Run) :
    Tallied hit engine (engine.startDebounce request delay owner).1 := by
  have timely := timely_startDebounce engine request delay owner
  unfold startDebounce at timely ⊢
  split
  · exact .refl engine
  · next going =>
    rw [if_neg going] at timely
    split
    · exact .refl engine
    · next delayed =>
      rw [if_neg delayed] at timely
      let waiter := engine.loop.futures.length
      let timed := engine.addFuture.2.withLoop (·.setTimer delay waiter)
      let started := (timed.spawn (.watch request)).2
      have set := Loop.grown_setTimer (Loop.bare_addFuture engine.loop) delay
      have grown : Grown engine.loop timed.loop := (Loop.grown_addFuture engine.loop).trans set
      have bare : started.loop.Bare waiter :=
        (Loop.bare_spawn _ waiter).mpr (set.bare (Loop.bare_addFuture engine.loop))
      have noted : Grown started.loop (started.loop.watch timed.loop.futures.length (.release waiter)) :=
        Loop.grown_watch bare _
      have steady : Steady engine started :=
        (steady_grown grown).trans (steady_spawn timed nofun)
      exact .withLoop engine (f := fun _ => started.loop.watch timed.loop.futures.length (.release waiter))
        timely (fun _ => steady.trans (steady_grown noted))
        (fun released => ((released.lone.grown grown).spawn _).grown noted)
        fun id known => noted.bare ((Loop.bare_spawn _ id).mpr (grown.bare known))

theorem tallied_unwindWatch (engine : Engine) (watch : Nat) (timedOut : Bool) (owner : Option Run) :
    Tallied hit engine (engine.unwindWatch watch timedOut owner).1 := by
  have grown : Grown engine.loop (engine.loop.addFuture.2.watch watch (.release engine.loop.futures.length)) :=
    (Loop.grown_addFuture engine.loop).trans (Loop.grown_watch (Loop.bare_addFuture engine.loop) watch)
  have step : Loop.Cancelled (engine.loop.addFuture.2.watch watch (.release engine.loop.futures.length))
      watch _ := Loop.cancelled_cancel watch
  exact .withLoop engine (f := fun loop => (loop.addFuture.2.watch watch
      (.release loop.futures.length)).cancel watch) (timely_unwindWatch engine watch timedOut owner)
    (fun _ => (steady_grown grown).trans (steady_cancel _ watch))
    (fun released => (released.lone.grown grown).cancelled step)
    fun id known => (step.bare id).mpr (grown.bare known)

theorem accounted_startDebounce (env : Environment) (engine : Engine) (request delay : Nat)
    (owner : Option Run) :
    Accounted hit none engine (deliver env owner (engine.startDebounce request delay owner)) := by
  refine accounted_deliver env (tallied_startDebounce ..) fun target phase waits => ?_
  unfold startDebounce at waits
  split at waits
  · cases waits
  · split at waits
    · cases waits
    · cases waits
      rfl

theorem accounted_awaitDebounce (env : Environment) (run : Run) (engine : Engine) (settings : Settings) :
    Accounted hit none engine (engine.awaitDebounce env run settings) := by
  have entered : Tallied hit engine (engine.setStage run.orchestrator .debouncing) :=
    .of_alike (alike_modifyOrchestrator ..)
  unfold awaitDebounce
  dsimp only
  split
  · exact .from_tallied entered (.minds (minded_endRun ..))
  · exact .from_tallied entered (accounted_startDebounce ..)

theorem tallied_lookUp (env : Environment) (run : Run) (engine : Engine) (cache : Cache Float) :
    Tallied hit engine (engine.lookUp env run cache).2 := by
  unfold lookUp
  split
  · exact .refl engine
  · exact .of_alike ((alike_emit ..).trans (alike_modifyOrchestrator ..))

theorem accounted_startCompletion (env : Environment) (engine : Engine) (orchestrator : Nat)
    (document : Document) (position : Position) :
    Accounted (engine.workOf orchestrator) none engine
      (engine.startCompletion env orchestrator document position) := by
  have begun := tallied_beginRequest engine orchestrator
  generalize engine.workOf orchestrator = hit at begun ⊢
  unfold startCompletion
  generalize engine.beginRequest orchestrator = started at begun
  obtain ⟨request, new⟩ := started
  refine .from_tallied begun ?_
  dsimp only
  split
  · exact .minds (.of_done (.refl new) _)
  · next o _ =>
    generalize Run.mk orchestrator request document position
      (classify document position o.settings.scanWindow) _ = run
    have looked : Tallied hit new _ := tallied_lookUp env run new o.cache
    split
    · next entry last same =>
      rw [same] at looked
      have entered : Tallied hit last (last.setStage orchestrator .cacheHit) :=
        .of_alike (alike_modifyOrchestrator ..)
      exact .from_tallied (looked.trans entered) (.minds (minded_endRun ..))
    · next last same =>
      rw [same] at looked
      exact .from_tallied looked (accounted_awaitDebounce ..)

/-! One turn. -/

/-- What is stopped when a phase goes on: a completion that begins stops the one before it. -/
def stopsOf (engine : Engine) : Phase → Outcome → Belonging → Prop
  | .start (.complete orchestrator _ _), .value _ => engine.workOf orchestrator
  | _, _ => fun _ => False

/-- A task that goes on no longer awaits its call. -/
def dropped (engine : Engine) (phase : Phase) : Engine :=
  match phase.calls? with
  | some call => engine.withClient (·.dropCall call)
  | none => engine

theorem accounted_start (env : Environment) (engine : Engine) (job : Job) (v : Value) :
    Accounted (engine.stopsOf (.start job) (.value v)) none engine (engine.start env job) := by
  cases job with
  | watch request => exact .minds (minded_startWatch engine request)
  | debounce request delay => exact accounted_startDebounce env engine request delay none
  | answer call => exact .minds (minded_startAnswer engine call)
  | pull stream => exact .minds (minded_startPull engine stream)
  | chat call => exact .calls engine call none (.refl engine) (.refl _) rfl rfl rfl
  | next stream => exact .minds (minded_startNext engine stream)
  | collect stream => exact .minds (minded_startCollect engine stream [])
  | close stream =>
    have closed : Minded (engine.stopsOf (.start (.close stream)) (.value v)) (some stream) engine _ :=
      minded_closeFor env engine stream .outside
    exact .minds ⟨closed.tallied, closed.idle, fun _ same => by cases same⟩
  | complete orchestrator document position =>
    exact accounted_startCompletion env engine orchestrator document position

/-- From whichever phase a task goes on, this is what it does with the books. -/
theorem accounted_resume (env : Environment) (engine : Engine) (phase : Phase) (outcome : Outcome) :
    Accounted (engine.stopsOf phase outcome) phase.reads? (engine.dropped phase)
      (engine.resume env phase outcome) := by
  cases phase with
  | start job =>
    cases outcome with
    | value v => exact accounted_start env engine job v
    | failed failure | cancelled => exact .minds (.of_done (.refl engine) _)
  | watching => cases outcome <;> exact .minds (.of_done (.refl engine) _)
  | debouncing watch owner =>
    show Accounted _ none engine (deliver env owner (engine.resumeDebounce watch owner outcome))
    unfold resumeDebounce
    split
    · exact accounted_deliver env (.refl engine) fun _ _ same => by cases same
    · refine accounted_deliver env (tallied_unwindWatch ..) fun _ _ same => ?_
      cases same
      rfl
  | unwinding watch timedOut owner =>
    show Accounted _ none engine (deliver env owner (engine.resumeUnwinding watch timedOut outcome))
    unfold resumeUnwinding
    split <;> exact accounted_deliver env (.refl engine) fun _ _ same => by cases same
  | answering reply => exact .minds (minded_resumeAnswer engine reply outcome)
  | pulling stream => exact .minds (minded_resumePull engine stream outcome)
  | calling call owner =>
    show Accounted _ none (engine.withClient (·.dropCall call)) _
    cases owner with
    | none => exact .minds (.of_done (.refl _) _)
    | some run => exact .minds (minded_afterCall env run _ _)
  | reading stream consumer => exact .minds (minded_resumeReading env engine stream consumer outcome)
  | closing stream closer =>
    exact .minds (minded_deliverFarewell env stream closer (tallied_resumeFarewell engine stream outcome))

end InlineCompletion.Engine
