import InlineCompletion.Proofs.Engine.Ebbing
import InlineCompletion.Proofs.Engine.Timely

/-!
What the client has on its books. A call is active from its beginning until the one who awaits it goes
on, and a stream until it closes, once and for good; whatever else is done leaves that as it is. Of the
calls and streams that there were, only those are stopped that an operation names.
-/

namespace InlineCompletion

open Loop (Grown Cancelled)

/-- What a cancellation of the request stops. -/
def Request.Works (request : Request) : Belonging → Prop
  | .stream id => request.stream = some id
  | .call task => request.stream = none ∧ request.call = some task
  | _ => False

namespace Phase

/-- The call that a task awaits. -/
def calls? : Phase → Option Nat
  | .calling call _ => some call
  | _ => none

end Phase

/-- Where the task waits. -/
def Verdict.phase? : Verdict → Option Phase
  | .wait _ phase => some phase
  | .done _ => none

namespace Engine

variable {engine old new last : Engine} {env : Environment} {hit more : Belonging → Prop}
  {reads : Option Nat} {run : Run}

/-- What the requests and the gate let go are bare futures, too. -/
structure Released (engine : Engine) : Prop where
  lone : engine.loop.Lone
  gate : ∀ waiter ∈ engine.client.gateWaiters, engine.loop.Bare waiter
  requests : ∀ (id : Nat) (request : Request), engine.requests[id]? = some request →
    ∀ waiter ∈ request.waiters, engine.loop.Bare waiter

/-- A request has asked for the stream. -/
def Attached (engine : Engine) (id : Nat) : Prop :=
  ∃ (request : Nat) (found : Request), engine.requests[request]? = some found ∧ found.stream = some id

def Closed (engine : Engine) (id : Nat) : Prop :=
  ∀ stream, engine.streams[id]? = some stream → stream.closed = true

/-- The client knows the streams that are not closed, and was told once of those that are. -/
structure Booked (engine : Engine) : Prop where
  reported : ∀ (id : Nat) (stream : Stream), engine.streams[id]? = some stream → stream.reported = true
  reports : ∀ (id : Nat) (stream : Stream), engine.streams[id]? = some stream →
    stream.reports = if stream.closed then 1 else 0
  active : ∀ (id : Nat) (stream : Stream), engine.streams[id]? = some stream →
    (id ∈ engine.client.activeStreams ↔ stream.closed = false)
  inside : ∀ id ∈ engine.client.activeStreams, id < engine.streams.length
  once : engine.client.activeStreams.Nodup
  attached : ∀ id, engine.Attached id → id < engine.streams.length

/-- No call begins or ends and no stream opens; what is stopped was to be. -/
structure Tallied (hit : Belonging → Prop) (old new : Engine) : Prop where
  timely : Timely old new
  steady : old.Released → Steady old new
  released : old.Released → new.Released
  booked : old.Booked → new.Booked
  calls : new.client.activeCalls = old.client.activeCalls
  aborted : ∀ call ∈ new.client.abortedCalls, call ∈ old.client.abortedCalls ∨
    call ∈ old.client.activeCalls ∧ hit (.call call)
  length : new.streams.length = old.streams.length
  streams : ∀ (id : Nat) (stream : Stream), old.streams[id]? = some stream →
    ∃ found, new.streams[id]? = some found ∧ (stream.closed = true → found.closed = true) ∧
      (found.aborted = true → stream.aborted = true ∨ hit (.stream id))
  attached : ∀ id, new.Attached id → old.Attached id

theorem Released.of_bare (released : old.Released) (lone : new.loop.Lone)
    (bare : ∀ id, old.loop.Bare id → new.loop.Bare id)
    (gate : ∀ waiter ∈ new.client.gateWaiters, waiter ∈ old.client.gateWaiters ∨ new.loop.Bare waiter)
    (requests : ∀ (id : Nat) (request : Request), new.requests[id]? = some request →
      ∀ waiter ∈ request.waiters, new.loop.Bare waiter ∨
        ∃ (other : Nat) (found : Request), old.requests[other]? = some found ∧ waiter ∈ found.waiters) :
    new.Released where
  lone := lone
  gate := fun waiter member => (gate waiter member).elim
    (fun known => bare waiter (released.gate waiter known)) fun known => known
  requests := fun id request found waiter member => by
    rcases requests id request found waiter member with known | ⟨other, earlier, found', member'⟩
    · exact known
    · exact bare waiter (released.requests other earlier found' waiter member')

namespace Tallied

theorem mono (tallied : Tallied hit old new) (weaker : ∀ b, hit b → more b) : Tallied more old new where
  timely := tallied.timely
  steady := tallied.steady
  released := tallied.released
  booked := tallied.booked
  calls := tallied.calls
  aborted := fun call member => (tallied.aborted call member).imp_right (And.imp_right (weaker _))
  length := tallied.length
  streams := fun id stream known => by
    obtain ⟨found, known', closed, aborted⟩ := tallied.streams id stream known
    exact ⟨found, known', closed, fun stopped => (aborted stopped).imp_right (weaker _)⟩
  attached := tallied.attached

theorem trans (first : Tallied hit old new) (second : Tallied hit new last) : Tallied hit old last where
  timely := first.timely.trans second.timely
  steady := fun released => (first.steady released).trans (second.steady (first.released released))
  released := fun released => second.released (first.released released)
  booked := fun booked => second.booked (first.booked booked)
  calls := second.calls.trans first.calls
  aborted := by
    intro call member
    rcases second.aborted call member with known | ⟨active, hits⟩
    · exact first.aborted call known
    · exact Or.inr ⟨first.calls ▸ active, hits⟩
  length := second.length.trans first.length
  streams := by
    intro id stream known
    obtain ⟨found, known', closed, aborted⟩ := first.streams id stream known
    obtain ⟨found', known'', closed', aborted'⟩ := second.streams id found known'
    exact ⟨found', known'', fun shut => closed' (closed shut),
      fun stopped => (aborted' stopped).elim aborted Or.inr⟩
  attached := fun id known => first.attached id (second.attached id known)

theorem refl (engine : Engine) : Tallied hit engine engine where
  timely := .refl engine
  steady := fun _ => .refl engine
  released := fun released => released
  booked := fun booked => booked
  calls := rfl
  aborted := fun _ => Or.inl
  length := rfl
  streams := fun _ stream known => ⟨stream, known, fun closed => closed, Or.inl⟩
  attached := fun _ attached => attached

/-- A step off the books. -/
theorem of_same (timely : Timely old new) (steady : old.Released → Steady old new)
    (released : old.Released → new.Released)
    (calls : new.client.activeCalls = old.client.activeCalls)
    (aborted : new.client.abortedCalls = old.client.abortedCalls)
    (active : new.client.activeStreams = old.client.activeStreams) (streams : new.streams = old.streams)
    (attached : ∀ id, new.Attached id → old.Attached id) : Tallied hit old new where
  timely := timely
  steady := steady
  released := released
  booked := fun booked => by
    refine ⟨?_, ?_, ?_, ?_, active ▸ booked.once,
      fun id known => streams ▸ booked.attached id (attached id known)⟩
    · rw [streams]
      exact booked.reported
    · rw [streams]
      exact booked.reports
    · rw [streams, active]
      exact booked.active
    · rw [streams, active]
      exact booked.inside
  calls := calls
  aborted := fun call member => Or.inl (aborted ▸ member)
  length := by rw [streams]
  streams := fun id stream known => ⟨stream, streams ▸ known, fun closed => closed, Or.inl⟩
  attached := attached

theorem withLoop (engine : Engine) {f : Loop Phase → Loop Phase}
    (timely : Timely engine (engine.withLoop f))
    (steady : engine.Released → Steady engine (engine.withLoop f))
    (lone : engine.Released → (f engine.loop).Lone)
    (bare : ∀ id, engine.loop.Bare id → (f engine.loop).Bare id) :
    Tallied hit engine (engine.withLoop f) :=
  .of_same timely steady (fun released => released.of_bare (lone released) bare (fun _ => Or.inl)
      fun id request found _ member => Or.inr ⟨id, request, found, member⟩)
    rfl rfl rfl rfl fun _ attached => attached

/-- Sources, orchestrators and events are on no book. -/
theorem of_alike (alike : Alike old new) : Tallied hit old new where
  timely := .of_alike alike
  steady := fun _ => .of_loop_eq alike.loop
  released := fun released => by
    refine ⟨alike.loop ▸ released.lone, ?_, ?_⟩
    · rw [alike.loop, alike.gateWaiters]
      exact released.gate
    · rw [alike.loop, alike.requests]
      exact released.requests
  booked := fun booked => by
    have length := congrArg List.length alike.streams
    rw [List.length_map, List.length_map] at length
    have shell {id : Nat} {stream : Stream} (known : new.streams[id]? = some stream) :
        ∃ other, old.streams[id]? = some other ∧ stream.shell = other.shell := alike.symm_stream known
    refine ⟨?_, ?_, ?_, ?_, alike.activeStreams ▸ booked.once, ?_⟩
    · intro id stream known
      obtain ⟨other, known', same⟩ := shell known
      exact (Stream.of_shell_eq same).1.trans (booked.reported id other known')
    · intro id stream known
      obtain ⟨other, known', same⟩ := shell known
      have reports : stream.shell.reports = other.shell.reports := congrArg Stream.reports same
      rw [(Stream.of_shell_eq same).2.2.1]
      exact reports.trans (booked.reports id other known')
    · intro id stream known
      obtain ⟨other, known', same⟩ := shell known
      rw [alike.activeStreams, (Stream.of_shell_eq same).2.2.1]
      exact booked.active id other known'
    · rw [alike.activeStreams, length]
      exact booked.inside
    · intro id attached
      obtain ⟨request, found, known, same⟩ := attached
      rw [length]
      exact booked.attached id ⟨request, found, alike.requests ▸ known, same⟩
  calls := alike.activeCalls
  aborted := fun call member => Or.inl (alike.abortedCalls ▸ member)
  length := by
    have length := congrArg List.length alike.streams
    rwa [List.length_map, List.length_map] at length
  streams := fun id stream known => by
    obtain ⟨other, known', same⟩ := alike.stream known
    obtain ⟨-, aborted, closed, -⟩ := Stream.of_shell_eq same
    exact ⟨other, known', closed.trans, fun stopped => Or.inl (aborted ▸ stopped)⟩
  attached := fun id ⟨request, found, known, same⟩ => ⟨request, found, alike.requests ▸ known, same⟩

/-- A stream that is closed stays so. -/
theorem closed (tallied : Tallied hit old new) {id : Nat} (closed : old.Closed id) : new.Closed id := by
  intro stream known
  have inside := (List.getElem?_eq_some_iff.mp known).1
  rw [tallied.length] at inside
  obtain ⟨found, known', keeps, -⟩ := tallied.streams id _ (List.getElem?_eq_getElem inside)
  cases known.symm.trans known'
  exact keeps (closed _ (List.getElem?_eq_getElem inside))

end Tallied

/-! The loop. -/

theorem tallied_spawn (engine : Engine) {job : Job} (helps : ∀ orchestrator document position,
    job ≠ .complete orchestrator document position) : Tallied hit engine (engine.spawn job).2 :=
  .withLoop engine (f := fun loop => (loop.spawn (.start job)).2) (timely_spawn engine job)
    (fun _ => steady_spawn engine helps)
    (fun released => released.lone.spawn _) fun id => (Loop.bare_spawn _ id).mpr

theorem tallied_settleAll (engine : Engine) (waiters : List Nat) (v : Value)
    (apart : ∀ {waiter guard due : Nat}, engine.Punctual waiter guard due → waiter ∉ waiters)
    (bare : engine.Released → ∀ waiter ∈ waiters, engine.loop.Bare waiter) :
    Tallied hit engine (engine.withLoop fun loop =>
      waiters.foldl (fun l waiter => l.settle waiter (.value v)) loop) :=
  .withLoop engine (timely_settleAll engine _ apart) (fun released => steady_settleAll (bare released) v)
    (fun released => released.lone.settleAll waiters _) fun id => (Loop.bare_settleAll waiters id _).mpr

theorem tallied_cancel (engine : Engine) (root : Nat) :
    Tallied hit engine (engine.withLoop (·.cancel root)) := by
  have step : Cancelled engine.loop root (engine.loop.cancel root) := Loop.cancelled_cancel root
  exact .withLoop engine (timely_cancel engine root) (fun _ => steady_cancel engine root)
    (fun released => released.lone.cancelled step) fun id => (step.bare id).mpr

/-! The client and its streams. -/

theorem tallied_awaitGate (engine : Engine) (phase : Phase) :
    Tallied hit engine (engine.awaitGate phase).1 := by
  have added := Loop.grown_addFuture engine.loop
  refine .of_same (timely_awaitGate engine phase) (fun _ => (steady_addFuture engine).to_same rfl)
    (fun released => ?_) rfl rfl rfl rfl fun _ attached => attached
  refine released.of_bare (released.lone.grown added) (fun _ => added.bare) (fun waiter member => ?_)
    fun id request found waiter member => Or.inr ⟨id, request, found, member⟩
  refine (List.mem_append.mp member).imp_right fun new => ?_
  cases List.mem_singleton.mp new
  exact Loop.bare_addFuture engine.loop

/-- One stream changes, and with it perhaps what the client knows of its streams. -/
theorem Tallied.of_stream {id : Nat} {f : Stream → Stream} {client : Client}
    (gate : client.gateWaiters = engine.client.gateWaiters)
    (calls : client.activeCalls = engine.client.activeCalls)
    (stopped : client.abortedCalls = engine.client.abortedCalls)
    (closed : ∀ stream, stream.closed = true → (f stream).closed = true)
    (aborted : ∀ stream, (f stream).aborted = true → stream.aborted = true ∨ hit (.stream id))
    (booked : engine.Booked → ({ engine.modifyStream id f with client } : Engine).Booked) :
    Tallied hit engine { engine.modifyStream id f with client } where
  timely := .of_same rfl gate rfl
  steady := fun _ => .of_loop_eq rfl
  released := fun released => released.of_bare released.lone (fun _ bare => bare)
    (fun _ member => Or.inl (gate ▸ member))
    fun other request found waiter member => Or.inr ⟨other, request, found, member⟩
  booked := booked
  calls := calls
  aborted := fun _ member => Or.inl (stopped ▸ member)
  length := List.length_modify ..
  streams := by
    intro other stream known
    show ∃ found, (engine.streams.modify id f)[other]? = some found ∧ _
    rw [getElem?_modify]
    split
    · next here =>
      rw [known, here]
      exact ⟨f stream, rfl, closed stream, aborted stream⟩
    · exact ⟨stream, known, fun shut => shut, Or.inl⟩
  attached := fun _ same => same

/-- What is noted of a stream beside its state is on no book. -/
theorem tallied_markStream (engine : Engine) (id : Nat) {f : Stream → Stream}
    (reported : ∀ stream, (f stream).reported = stream.reported)
    (reports : ∀ stream, (f stream).reports = stream.reports)
    (closed : ∀ stream, (f stream).closed = stream.closed)
    (aborted : ∀ stream, (f stream).aborted = true → stream.aborted = true ∨ hit (.stream id)) :
    Tallied hit engine (engine.modifyStream id f) := by
  have length : (engine.modifyStream id f).streams.length = engine.streams.length :=
    List.length_modify ..
  have look {other : Nat} {stream : Stream}
      (known : (engine.modifyStream id f).streams[other]? = some stream) : ∃ found,
        engine.streams[other]? = some found ∧ stream.reported = found.reported ∧
        stream.reports = found.reports ∧ stream.closed = found.closed := by
    have known : (engine.streams.modify id f)[other]? = some stream := known
    rw [getElem?_modify] at known
    split at known
    · obtain ⟨found, known', rfl⟩ := Option.map_eq_some_iff.mp known
      exact ⟨found, known', reported found, reports found, closed found⟩
    · exact ⟨stream, known, rfl, rfl, rfl⟩
  refine .of_stream rfl rfl rfl (fun stream shut => (closed stream).trans shut) aborted fun booked => ?_
  constructor
  case reported =>
    intro other stream known
    obtain ⟨found, known', same, -⟩ := look known
    exact same.trans (booked.reported other found known')
  case reports =>
    intro other stream known
    obtain ⟨found, known', -, same, shut⟩ := look known
    rw [same, shut]
    exact booked.reports other found known'
  case active =>
    intro other stream known
    obtain ⟨found, known', -, -, shut⟩ := look known
    rw [shut]
    exact booked.active other found known'
  case inside => exact length ▸ booked.inside
  case once => exact booked.once
  case attached => exact length ▸ booked.attached

/-- A stream that was open is reported closed, and the client forgets it. -/
theorem Booked.close {id : Nat} {stream : Stream} (booked : engine.Booked)
    (known : engine.streams[id]? = some stream) (going : stream.closed = false) :
    ((engine.modifyStream id fun s => { s with closed := true, reports := s.reports + 1 }).withClient
      (·.dropStream id)).Booked := by
  have length (f : Stream → Stream) : (engine.streams.modify id f).length = engine.streams.length :=
    List.length_modify ..
  have look {other : Nat} {after : Stream}
      (known' : (engine.streams.modify id fun s =>
        { s with closed := true, reports := s.reports + 1 })[other]? = some after) :
      other = id ∧ after = { stream with closed := true, reports := stream.reports + 1 } ∨
        other ≠ id ∧ engine.streams[other]? = some after := by
    rw [getElem?_modify] at known'
    split at known'
    · next here =>
      rw [here, known] at known'
      exact Or.inl ⟨here, (Option.some.inj known').symm⟩
    · next elsewhere => exact Or.inr ⟨elsewhere, known'⟩
  constructor
  case reported =>
    intro other after known'
    rcases look known' with ⟨rfl, rfl⟩ | ⟨-, known'⟩
    · exact booked.reported other stream known
    · exact booked.reported other after known'
  case reports =>
    intro other after known'
    rcases look known' with ⟨rfl, rfl⟩ | ⟨-, known'⟩
    · have none := booked.reports other stream known
      rw [going] at none
      simp [none]
    · exact booked.reports other after known'
  case active =>
    intro other after known'
    show other ∈ engine.client.activeStreams.filter (· ≠ id) ↔ _
    rw [List.mem_filter]
    rcases look known' with ⟨rfl, rfl⟩ | ⟨elsewhere, known'⟩
    · simp
    · rw [booked.active other after known']
      simp [elsewhere]
  case inside =>
    intro other member
    exact (length _).symm ▸ booked.inside other (List.mem_filter.mp member).1
  case once => exact booked.once.filter _
  case attached =>
    intro other attached
    exact (length _).symm ▸ booked.attached other attached

theorem tallied_finishStream (engine : Engine) (id : Nat) :
    Tallied hit engine (engine.finishStream id) := by
  unfold finishStream
  cases known : engine.streams[id]? with
  | none => exact .refl engine
  | some stream =>
    dsimp only
    split
    · exact .refl engine
    · next going =>
      split
      · exact .of_stream rfl rfl rfl (fun _ _ => rfl) (fun _ => Or.inl) fun booked =>
          booked.close known (Bool.eq_false_iff.mpr going)
      · next unreported =>
        -- The client knows of every stream that it has on its books.
        exact .of_stream rfl rfl rfl (fun _ _ => rfl) (fun _ => Or.inl) fun booked =>
          absurd (booked.reported id stream known) unreported

theorem closed_finishStream (engine : Engine) (id : Nat) : (engine.finishStream id).Closed id := by
  intro stream known
  cases before : engine.streams[id]? with
  | none =>
    unfold finishStream at known
    simp only [before, reduceCtorEq] at known
  | some found =>
    obtain ⟨after, known', closed, -⟩ := stream_finishStream engine id before
    cases known.symm.trans known'
    exact closed

/-! Stopping. -/

theorem tallied_cancelCall (engine : Engine) (call : Nat) :
    Tallied (· = .call call) engine (engine.cancelCall call) := by
  unfold cancelCall
  split
  · exact .refl engine
  · split
    · next active =>
      rw [Bool.and_eq_true, decide_eq_true_eq] at active
      have marked : Tallied (· = .call call) engine (engine.withClient (·.markAborted call)) := by
        have same : Tallied (· = .call call) engine engine := .refl engine
        refine ⟨.of_same rfl rfl rfl, fun _ => .of_loop_eq rfl,
          fun released => ⟨released.lone, released.gate, released.requests⟩,
          fun booked => ⟨booked.reported, booked.reports, booked.active, booked.inside, booked.once,
            booked.attached⟩, rfl, fun other member => ?_, rfl, same.streams, same.attached⟩
        have member : other ∈ if call ∈ engine.client.abortedCalls then engine.client.abortedCalls
          else engine.client.abortedCalls ++ [call] := member
        split at member
        · exact Or.inl member
        · refine (List.mem_append.mp member).imp_right fun new => ?_
          cases List.mem_singleton.mp new
          exact ⟨active.1, rfl⟩
      exact marked.trans (tallied_cancel _ call)
    · exact .refl engine

theorem tallied_abortStream (engine : Engine) (id : Nat) :
    Tallied (· = .stream id) engine (engine.abortStream id) := by
  unfold abortStream
  split
  · exact .refl engine
  · next stream _ =>
    split
    · exact .refl engine
    · have marked : Tallied (· = .stream id) engine
          (engine.modifyStream id fun s => { s with aborted := true }) :=
        tallied_markStream engine id (fun _ => rfl) (fun _ => rfl) (fun _ => rfl) fun _ _ => Or.inr rfl
      refine (marked.trans ?_).trans (tallied_finishStream ..)
      cases stream.pending with
      | none => exact .refl _
      | some read => exact tallied_cancel _ read

theorem tallied_stopWork (engine : Engine) (work : Request) :
    Tallied work.Works engine (engine.stopWork work) := by
  unfold stopWork
  cases streams : work.stream with
  | some stream =>
    have told : Tallied (· = .stream stream) engine (engine.emit (.stoppedStream stream)) :=
      .of_alike (alike_emit engine _)
    refine (told.trans (tallied_abortStream _ stream)).mono fun b same => ?_
    subst same
    exact streams
  | none =>
    cases calls : work.call with
    | some call =>
      have told : Tallied (· = .call call) engine (engine.emit (.stoppedCall call)) :=
        .of_alike (alike_emit engine _)
      refine (told.trans (tallied_cancelCall _ call)).mono fun b same => ?_
      subst same
      exact ⟨streams, calls⟩
    | none => exact .refl engine

theorem attached_modifyRequest {id : Nat} {f : Request → Request}
    (same : ∀ request, (f request).stream = request.stream) (stream : Nat)
    (attached : (engine.modifyRequest id f).Attached stream) : engine.Attached stream := by
  obtain ⟨other, found, known, mine⟩ := attached
  have known : (engine.requests.modify id f)[other]? = some found := known
  rw [getElem?_modify] at known
  split at known
  · obtain ⟨before, known', rfl⟩ := Option.map_eq_some_iff.mp known
    exact ⟨other, before, known', (same before).symm.trans mine⟩
  · exact ⟨other, found, known, mine⟩

/-- A request that only lets go of waiters asks for no stream. -/
theorem tallied_modifyRequest (engine : Engine) (id : Nat) {f : Request → Request}
    (same : ∀ request, (f request).stream = request.stream)
    (fewer : ∀ request, ∀ waiter ∈ (f request).waiters, waiter ∈ request.waiters) :
    Tallied hit engine (engine.modifyRequest id f) := by
  refine .of_same (timely_modifyRequest engine id fewer) (fun _ => .of_loop_eq rfl) (fun released => ?_)
    rfl rfl rfl rfl (attached_modifyRequest same)
  refine released.of_bare released.lone (fun _ bare => bare) (fun _ => Or.inl)
    fun other request found waiter member => ?_
  have found : (engine.requests.modify id f)[other]? = some request := found
  rw [getElem?_modify] at found
  split at found
  · obtain ⟨before, known, rfl⟩ := Option.map_eq_some_iff.mp found
    exact Or.inr ⟨other, before, known, fewer before waiter member⟩
  · exact Or.inr ⟨other, request, found, member⟩

/-- What the request with this number works on. -/
def worksOf (engine : Engine) (id : Nat) (b : Belonging) : Prop :=
  ∃ request, engine.requests[id]? = some request ∧ request.cancelled = false ∧ request.Works b

/-- What the live request of an orchestrator works on. -/
def workOf (engine : Engine) (orchestrator : Nat) (b : Belonging) : Prop :=
  ∃ o id, engine.orchestrators[orchestrator]? = some o ∧ o.current = some id ∧ engine.worksOf id b

theorem tallied_cancelRequest (engine : Engine) (id : Nat) :
    Tallied (engine.worksOf id) engine (engine.cancelRequest id) := by
  cases known : engine.requests[id]? with
  | none =>
    unfold cancelRequest
    simp only [known]
    exact .refl engine
  | some request =>
    cases cancelled : request.cancelled with
    | true =>
      unfold cancelRequest
      simp only [known, cancelled, if_true]
      exact .refl engine
    | false =>
      rw [cancelRequest_eq known cancelled]
      have woken : Tallied (engine.worksOf id) engine _ :=
        tallied_settleAll engine request.waiters (.truth true)
          (fun punctual => punctual.requests id request known) fun released => released.requests id request known
      have stopped : Tallied (engine.worksOf id) _ _ :=
        (tallied_stopWork (engine.withLoop fun loop => request.waiters.foldl
          (fun l waiter => l.settle waiter (.value (.truth true))) loop) request).mono
            fun b works => ⟨request, known, cancelled, works⟩
      exact (woken.trans stopped).trans (tallied_modifyRequest _ id (fun _ => rfl) fun _ => nofun)

theorem tallied_cancelCurrent (engine : Engine) (orchestrator : Nat) :
    Tallied (engine.workOf orchestrator) engine (engine.cancelCurrent orchestrator) := by
  unfold cancelCurrent
  dsimp only
  have counted : Tallied (engine.workOf orchestrator) engine
      (engine.modifyOrchestrator orchestrator fun o => { o with generation := o.generation + 1 }) :=
    .of_alike (alike_modifyOrchestrator ..)
  split
  · exact counted.trans (.of_alike (alike_modifyOrchestrator ..))
  · next request current =>
    obtain ⟨o, found, current⟩ := Option.bind_eq_some_iff.mp current
    have cancelled : Tallied (engine.workOf orchestrator) _ _ :=
      (tallied_cancelRequest (engine.modifyOrchestrator orchestrator fun o =>
        { o with generation := o.generation + 1 }) request).mono
          fun b works => ⟨o, request, found, current, works⟩
    exact (counted.trans cancelled).trans (.of_alike (alike_modifyOrchestrator ..))

theorem tallied_beginRequest (engine : Engine) (orchestrator : Nat) :
    Tallied (engine.workOf orchestrator) engine (engine.beginRequest orchestrator).2 := by
  have added (middle : Engine) (generation : Int) : Tallied (engine.workOf orchestrator) middle
      (middle.addRequest { generation }).2 := by
    have look {id : Nat} {request : Request}
        (known : (middle.requests ++ [({ generation } : Request)])[id]? = some request) :
        middle.requests[id]? = some request ∨ request = { generation } := by
      rcases List.mem_append.mp (List.mem_of_getElem? known) with member | member
      · rw [List.getElem?_append] at known
        split at known
        · exact Or.inl known
        · exact Or.inr (List.mem_singleton.mp (List.mem_of_getElem? known))
      · exact Or.inr (List.mem_singleton.mp member)
    refine .of_same (timely_addRequest middle generation) (fun _ => .of_loop_eq rfl) (fun released => ?_)
      rfl rfl rfl rfl fun stream attached => ?_
    · refine released.of_bare released.lone (fun _ bare => bare) (fun _ => Or.inl)
        fun id request found waiter member => ?_
      rcases look found with known | rfl
      · exact Or.inr ⟨id, request, known, member⟩
      · cases member
    · obtain ⟨id, request, found, same⟩ := attached
      rcases look found with known | rfl
      · exact ⟨id, request, known, same⟩
      · cases same
  exact ((tallied_cancelCurrent engine orchestrator).trans (added _ _)).trans
    (.of_alike (alike_modifyOrchestrator ..))

theorem tallied_abortClient (engine : Engine) : Tallied (fun _ => True) engine engine.abortClient := by
  have calls (ids : List Nat) (engine : Engine) :
      Tallied (fun _ => True) engine (ids.foldl cancelCall engine) := by
    induction ids generalizing engine with
    | nil => exact .refl engine
    | cons id rest ih => exact ((tallied_cancelCall engine id).mono fun _ _ => trivial).trans (ih _)
  have streams (ids : List Nat) (engine : Engine) :
      Tallied (fun _ => True) engine (ids.foldl abortStream engine) := by
    induction ids generalizing engine with
    | nil => exact .refl engine
    | cons id rest ih => exact ((tallied_abortStream engine id).mono fun _ _ => trivial).trans (ih _)
  exact (calls ..).trans (streams ..)

theorem tallied_openGate (engine : Engine) : Tallied hit engine engine.openGate := by
  have woken : Tallied hit engine _ := tallied_settleAll engine engine.client.gateWaiters .nothing
    (fun punctual => punctual.gate) fun released => released.gate
  refine woken.trans (.of_same (.of_fewer rfl (fun _ => nofun) fun id request known _ member =>
    ⟨id, request, known, member⟩) (fun _ => .of_loop_eq rfl) (fun released => ?_) rfl rfl rfl rfl
    fun _ attached => attached)
  exact ⟨released.lone, nofun, released.requests⟩

theorem tallied_proceed (engine : Engine) (waiter : Nat) : Tallied hit engine (engine.proceed waiter) := by
  unfold proceed
  split
  · next member =>
    have woken : Tallied hit engine _ := tallied_settleAll engine [waiter] .nothing
      (fun punctual same => punctual.gate (List.mem_singleton.mp same ▸ member))
      fun released other same => List.mem_singleton.mp same ▸ released.gate waiter member
    refine woken.trans (.of_same (.of_fewer rfl (fun _ kept => (List.mem_filter.mp kept).1)
      fun id request known _ member => ⟨id, request, known, member⟩) (fun _ => .of_loop_eq rfl)
      (fun released => ?_) rfl rfl rfl rfl fun _ attached => attached)
    exact ⟨released.lone, fun other kept => released.gate other (List.mem_filter.mp kept).1,
      released.requests⟩
  · exact .refl engine

end Engine

end InlineCompletion
