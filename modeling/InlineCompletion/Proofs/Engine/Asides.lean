import InlineCompletion.Proofs.Engine.Completing

/-!
Steps of which the orchestrators and the owners of requests learn nothing. Whatever a client, a
stream or a loop does by itself is of this kind, and so is all that the tasks do that work for others.
-/

namespace InlineCompletion

/-- What the owner of a request may ask of it: whether it is cancelled, and its generation. -/
def Request.mark (request : Request) : Bool × Int :=
  (request.cancelled, request.generation)

/-- The request that an orchestrator has, and its generation. -/
def Orchestrator.tenure (o : Orchestrator) : Option Nat × Int :=
  (o.current, o.generation)

namespace Event

/-- The client tells of its own work. -/
def Recorded : Event → Prop
  | .recorded _ => True
  | _ => False

/-- The work of a request is stopped. -/
def Stopping : Event → Prop
  | .stoppedCall _ | .stoppedStream _ => True
  | _ => False

end Event

namespace Engine

variable {engine old new : Engine} {tells : Event → Prop} {touched : Nat → Prop}
  {running : Option (Nat × Outcome)}

def markOf (engine : Engine) (request : Nat) : Option (Bool × Int) :=
  (engine.requests[request]?).map Request.mark

def tenureOf (engine : Engine) (orchestrator : Nat) : Option (Option Nat × Int) :=
  (engine.orchestrators[orchestrator]?).map Orchestrator.tenure

theorem markOf_eq_none_iff (engine : Engine) (id : Nat) :
    engine.markOf id = none ↔ engine.requests.length ≤ id := by
  rw [markOf, Option.map_eq_none_iff, List.getElem?_eq_none_iff]

theorem markOf_of_requests (same : new.requests = old.requests) (id : Nat) :
    new.markOf id = old.markOf id := by
  unfold markOf
  rw [same]

theorem tenureOf_of_orchestrators (same : new.orchestrators = old.orchestrators) (id : Nat) :
    new.tenureOf id = old.tenureOf id := by
  unfold tenureOf
  rw [same]

structure Aside (tells : Event → Prop) (old new : Engine) : Prop where
  steady : Steady old new
  orchestrators : new.orchestrators = old.orchestrators
  marks : ∀ id, new.markOf id = old.markOf id
  events : ∃ told, new.events = old.events ++ told ∧ ∀ event ∈ told, tells event
  interrupted : new.interrupted = old.interrupted

/-- Nothing is told to anybody. -/
abbrev Silent : Engine → Engine → Prop :=
  Aside fun _ => False

namespace Aside

theorem of_steady (steady : Steady old new) (orchestrators : new.orchestrators = old.orchestrators)
    (requests : new.requests = old.requests) (events : new.events = old.events)
    (interrupted : new.interrupted = old.interrupted) : Aside tells old new :=
  ⟨steady, orchestrators, markOf_of_requests requests, ⟨[], by simpa using events, nofun⟩, interrupted⟩

theorem refl (engine : Engine) : Aside tells engine engine :=
  .of_steady (.refl engine) rfl rfl rfl rfl

theorem trans {last : Engine} (first : Aside tells old new) (second : Aside tells new last) :
    Aside tells old last := by
  obtain ⟨told, events, allowed⟩ := first.events
  obtain ⟨told', events', allowed'⟩ := second.events
  refine ⟨first.steady.trans second.steady, second.orchestrators.trans first.orchestrators,
    fun id => (second.marks id).trans (first.marks id), ⟨told ++ told', ?_, fun event member => ?_⟩,
    second.interrupted.trans first.interrupted⟩
  · rw [events', events, List.append_assoc]
  · rcases List.mem_append.mp member with early | late
    · exact allowed event early
    · exact allowed' event late

theorem silent_events (aside : Silent old new) : new.events = old.events := by
  obtain ⟨told, events, allowed⟩ := aside.events
  cases told with
  | nil => simpa using events
  | cons event rest => exact (allowed event (List.mem_cons_self ..)).elim

end Aside

theorem aside_withClient (engine : Engine) (f : Client → Client) :
    Aside tells engine (engine.withClient f) :=
  .of_steady (.of_loop_eq rfl) rfl rfl rfl rfl

theorem aside_modifyStream (engine : Engine) (id : Nat) (f : Stream → Stream) :
    Aside tells engine (engine.modifyStream id f) :=
  .of_steady (.of_loop_eq rfl) rfl rfl rfl rfl

theorem aside_modifySource (engine : Engine) (id : Nat) (f : Source → Source) :
    Aside tells engine (engine.modifySource id f) :=
  aside_modifyStream ..

theorem aside_withLoop {f : Loop Phase → Loop Phase} (steady : Steady engine (engine.withLoop f)) :
    Aside tells engine (engine.withLoop f) :=
  .of_steady steady rfl rfl rfl rfl

theorem aside_emit (engine : Engine) {event : Event} (told : tells event) :
    Aside tells engine (engine.emit event) :=
  ⟨.of_loop_eq rfl, rfl, fun _ => rfl, ⟨[event], rfl, by simpa using told⟩, rfl⟩

theorem aside_modifyRequest (engine : Engine) (id : Nat) {f : Request → Request}
    (same : ∀ request, (f request).mark = request.mark) :
    Aside tells engine (engine.modifyRequest id f) := by
  refine ⟨.of_loop_eq rfl, rfl, fun other => ?_, ⟨[], by simp [modifyRequest], nofun⟩, rfl⟩
  show ((engine.requests.modify id f)[other]?).map Request.mark = _
  rw [getElem?_modify]
  split
  · simp [markOf, Function.comp_def, same]
  · rfl

theorem aside_addFuture (engine : Engine) : Aside tells engine engine.addFuture.2 :=
  .of_steady (steady_addFuture engine) rfl rfl rfl rfl

theorem aside_spawn (engine : Engine) {job : Job} (helps : ∀ orchestrator document position,
    job ≠ .complete orchestrator document position) : Aside tells engine (engine.spawn job).2 :=
  .of_steady (steady_spawn engine helps) rfl rfl rfl rfl

/-! Streams and calls. -/

theorem aside_finishStream (engine : Engine) (id : Nat) :
    Aside tells engine (engine.finishStream id) := by
  unfold finishStream
  split
  · exact .refl engine
  · split
    · exact .refl engine
    · split
      · exact (aside_modifyStream ..).trans (aside_withClient ..)
      · exact aside_modifyStream ..

theorem aside_closeStream (engine : Engine) (id : Nat) :
    Aside tells engine (engine.closeStream id).2 := by
  unfold closeStream
  dsimp only
  split
  · exact aside_finishStream engine id
  · split
    · exact aside_finishStream engine id
    · split
      · exact aside_finishStream engine id
      · dsimp only
        exact (aside_finishStream engine id).trans (aside_modifySource ..)

theorem aside_bidFarewell (engine : Engine) (id : Nat) :
    Aside tells engine (engine.bidFarewell id).2 := by
  unfold bidFarewell
  split
  · exact .refl engine
  · split
    · exact .refl engine
    · split
      all_goals
        dsimp only
        exact aside_modifySource ..

theorem aside_resumeFarewell (engine : Engine) (id : Nat) (outcome : Outcome) :
    Aside tells engine (engine.resumeFarewell id outcome).2 := by
  unfold resumeFarewell
  split
  · exact aside_bidFarewell engine id
  · split
    · exact aside_bidFarewell engine id
    · dsimp only
      exact aside_modifySource ..

theorem aside_beginRead (engine : Engine) (id : Nat) :
    Aside tells engine (engine.beginRead id).2 := by
  unfold beginRead
  split
  · exact .refl engine
  · split
    · exact .refl engine
    · split
      · exact .refl engine
      · have spawned : Aside tells engine (engine.spawn (.pull id)).2 := aside_spawn engine nofun
        exact spawned.trans (aside_modifyStream ..)

theorem aside_endRead (engine : Engine) (id : Nat) (outcome : Outcome) :
    Aside tells engine (engine.endRead id outcome).2 := by
  have freed : Aside tells engine (engine.modifyStream id fun s => { s with pending := none }) :=
    aside_modifyStream ..
  unfold endRead
  dsimp only
  split
  · split
    · exact freed
    · exact freed
  · exact freed.trans (aside_finishStream ..)
  · exact freed.trans (aside_finishStream ..)
  · exact freed

theorem aside_openStream (engine : Engine) (call : Call) :
    Aside tells engine (engine.openStream call).2 :=
  .of_steady (.of_loop_eq rfl) rfl rfl rfl rfl

theorem aside_beginCall (engine : Engine) (call : Call) :
    Aside tells engine (engine.beginCall call).2 := by
  have spawned : Aside tells engine (engine.spawn (.answer call)).2 := aside_spawn engine nofun
  exact spawned.trans (aside_withClient _ (·.addCall engine.loop.futures.length))

theorem aside_endCall (engine : Engine) (call : Nat) (outcome : Outcome) :
    Aside tells engine (engine.endCall call outcome).2 :=
  aside_withClient engine (·.dropCall call)

theorem aside_cancelCall (engine : Engine) (call : Nat) :
    Aside tells engine (engine.cancelCall call) := by
  have steady := steady_cancelCall engine call
  unfold cancelCall at steady ⊢
  split
  · exact .refl engine
  · split
    · exact (aside_withClient ..).trans (aside_withLoop (steady_cancel ..))
    · exact .refl engine

theorem aside_abortStream (engine : Engine) (id : Nat) :
    Aside tells engine (engine.abortStream id) := by
  unfold abortStream
  split
  · exact .refl engine
  · next stream found =>
    split
    · exact .refl engine
    · have marked : Aside tells engine (engine.modifyStream id fun s => { s with aborted := true }) :=
        aside_modifyStream ..
      refine (marked.trans ?_).trans (aside_finishStream ..)
      cases stream.pending with
      | none => exact .refl _
      | some read => exact aside_withLoop (steady_cancel ..)

theorem aside_abortClient (engine : Engine) : Aside tells engine engine.abortClient := by
  have calls (ids : List Nat) (engine : Engine) :
      Aside tells engine (ids.foldl cancelCall engine) := by
    induction ids generalizing engine with
    | nil => exact .refl engine
    | cons id rest ih => exact (aside_cancelCall engine id).trans (ih _)
  have streams (ids : List Nat) (engine : Engine) :
      Aside tells engine (ids.foldl abortStream engine) := by
    induction ids generalizing engine with
    | nil => exact .refl engine
    | cons id rest ih => exact (aside_abortStream engine id).trans (ih _)
  exact (calls ..).trans (streams ..)

theorem aside_stopWork (engine : Engine) (work : Request) :
    Aside Event.Stopping engine (engine.stopWork work) := by
  unfold stopWork
  split
  · exact (aside_emit engine trivial).trans (aside_abortStream ..)
  · exact (aside_emit engine trivial).trans (aside_cancelCall ..)
  · exact .refl engine

theorem aside_settleAll {waiters : List Nat}
    (bare : ∀ waiter ∈ waiters, engine.loop.Bare waiter) (v : Value) :
    Aside tells engine (engine.withLoop fun loop =>
      waiters.foldl (fun l waiter => l.settle waiter (.value v)) loop) :=
  aside_withLoop (steady_settleAll bare v)

/-- But for the mark that it leaves, the cancellation of a request is told to nobody. -/
theorem aside_cancelGoing (coherent : engine.Coherent touched running) {id : Nat}
    {request : Request} (known : engine.requests[id]? = some request)
    (going : request.cancelled = false) :
    Aside Event.Stopping
      (engine.modifyRequest id fun r => { r with cancelled := true, waiters := [] })
      (engine.cancelRequest id) := by
  let marked := engine.modifyRequest id fun r => { r with cancelled := true, waiters := [] }
  have bare : ∀ waiter ∈ request.waiters, marked.loop.Bare waiter :=
    (coherent.requests id request known).waiters
  unfold cancelRequest
  simp only [known, going]
  exact (aside_settleAll bare (.truth true)).trans (aside_stopWork ..)

/-! The tasks that work for others. -/

theorem aside_takeReply (engine : Engine) (call : Call) :
    Aside Event.Recorded engine (engine.takeReply call).2 :=
  ⟨.of_loop_eq rfl, rfl, fun _ => rfl, ⟨[.recorded call], rfl, by simp [Event.Recorded]⟩, rfl⟩

theorem aside_openSource (engine : Engine) (id : Nat) :
    Aside Event.Recorded engine (engine.openSource id) := by
  unfold openSource
  split
  · exact .refl engine
  · dsimp only
    exact (aside_takeReply ..).trans (aside_modifySource ..)

theorem aside_awaitGate (engine : Engine) (phase : Phase) :
    Aside tells engine (engine.awaitGate phase).1 :=
  (aside_addFuture engine).trans (aside_withClient engine.addFuture.2 fun c =>
    { c with gateWaiters := c.gateWaiters ++ [engine.loop.futures.length] })

/-- What a task does that works for others. -/
structure Assists (old : Engine) (step : Step) : Prop where
  aside : Aside Event.Recorded old step.1
  helps : ∀ target phase, step.2 = .wait target phase → phase.isCompletion = false

namespace Assists

theorem of_done (aside : Aside Event.Recorded old new) (outcome : Outcome) :
    Assists old (new, .done outcome) :=
  ⟨aside, fun _ _ same => by cases same⟩

theorem of_wait (aside : Aside Event.Recorded old new) {phase : Phase}
    (helps : phase.isCompletion = false) (target : Nat) : Assists old (new, .wait target phase) :=
  ⟨aside, fun _ _ same => by cases same; exact helps⟩

theorem of_awaitGate (aside : Aside Event.Recorded old new) {phase : Phase}
    (helps : phase.isCompletion = false) : Assists old (new.awaitGate phase) :=
  .of_wait (aside.trans (aside_awaitGate new phase)) helps _

end Assists

theorem assists_startWatch (engine : Engine) (request : Nat) :
    Assists engine (engine.startWatch request) := by
  unfold startWatch
  split
  · exact .of_done (.refl engine) _
  · dsimp only
    refine .of_wait ?_ rfl _
    exact (aside_addFuture engine).trans (aside_modifyRequest _ request fun _ => rfl)

theorem assists_startAnswer (engine : Engine) (call : Call) :
    Assists engine (engine.startAnswer call) := by
  unfold startAnswer
  dsimp only
  split
  · exact .of_done (aside_takeReply ..) _
  · exact .of_awaitGate (aside_takeReply ..) rfl

theorem assists_resumeAnswer (engine : Engine) (reply : Reply) (outcome : Outcome) :
    Assists engine (engine.resumeAnswer reply outcome) := by
  unfold resumeAnswer
  split
  · exact .of_done (.refl engine) _
  · split
    · exact .of_done (.refl engine) _
    · split
      · exact .of_done (.refl engine) _
      · exact .of_awaitGate (.refl engine) rfl

theorem assists_pullSource (aside : Aside Event.Recorded old engine) (id : Nat) :
    Assists old (engine.pullSource id) := by
  unfold pullSource
  split
  · exact .of_done aside _
  · split
    · exact .of_done (aside.trans (aside_modifySource ..)) _
    · exact .of_awaitGate (aside.trans (aside_modifySource ..)) rfl

theorem assists_startPull (engine : Engine) (id : Nat) : Assists engine (engine.startPull id) := by
  unfold startPull
  split
  · exact .of_done (.refl engine) _
  · exact assists_pullSource (aside_openSource engine id) id

theorem assists_resumePull (engine : Engine) (id : Nat) (outcome : Outcome) :
    Assists engine (engine.resumePull id outcome) := by
  unfold resumePull
  split
  · exact assists_pullSource (.refl engine) id
  · split
    · exact assists_pullSource (.refl engine) id
    · exact .of_done (aside_modifySource ..) _

end Engine

end InlineCompletion
