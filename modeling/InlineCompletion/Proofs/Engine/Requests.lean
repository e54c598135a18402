import InlineCompletion.Proofs.Engine.Operations

/-!
Requests and the work that they start. A request is cancelled by waking those who wait for that and
by stopping its work; the order of the two does not matter, which is why what is half cancelled
never shows.
-/

namespace InlineCompletion.Engine

variable {engine : Engine} {touched : Nat → Prop} {running : Option (Nat × Outcome)}

/-- A new stream is active, and nobody reads it yet. -/
theorem Coherent.openStream (coherent : engine.Coherent touched running) (call : Call) :
    (engine.openStream call).2.Coherent touched running := by
  have streams (id : Nat) (stream : Stream)
      (found : (engine.openStream call).2.streams[id]? = some stream) :
      engine.streams[id]? = some stream ∨
        id = engine.streams.length ∧ stream = { source := { opening := some call } } := by
    have found : (engine.streams ++ [{ source := { opening := some call } }])[id]? = some stream := found
    rcases Nat.lt_or_ge id engine.streams.length with inside | outside
    · rw [List.getElem?_append_left inside] at found
      exact Or.inl found
    · rw [List.getElem?_append_right outside] at found
      obtain ⟨here, same⟩ := List.getElem?_eq_some_iff.mp found
      have last : id = engine.streams.length := by simp at here; omega
      subst last
      exact Or.inr ⟨rfl, by simpa using same.symm⟩
  have step : Rearranged (fun _ => False) engine (engine.openStream call).2 :=
    { loop := rfl
      gate := fun _ member _ => member
      requests := fun _ request found => ⟨request, found, fun _ member _ => member, fun _ => ⟨rfl, rfl⟩⟩
      activeCalls := fun _ member _ => member
      abortedCalls := fun _ member _ => member
      streams := by
        intro id stream found
        refine ⟨stream, ?_, fun aborted => aborted, fun _ => rfl⟩
        show (engine.streams ++ _)[id]? = _
        rw [List.getElem?_append_left (List.getElem?_eq_some_iff.mp found).1, found]
      events := fun _ member => member }
  refine coherent.rearranged step (fun _ _ _ _ _ _ => id) coherent.gate coherent.open_gate
    (coherent.same_requests step rfl) ?_ ?_ coherent.calls
  · intro id stream found
    rcases streams id stream found with known | ⟨-, rfl⟩
    · obtain ⟨reported, aborted, closed, pending⟩ := coherent.streams id stream known
      refine ⟨reported, aborted, fun ended member => ?_, fun read same => step.does (pending read same)⟩
      rcases List.mem_append.mp member with active | new
      · exact closed ended active
      · cases List.mem_singleton.mp new
        exact Nat.lt_irrefl _ (List.getElem?_eq_some_iff.mp known).1
    · exact ⟨rfl, nofun, nofun, nofun⟩
  · intro id member
    show id < (engine.streams ++ _).length
    rw [List.length_append]
    rcases List.mem_append.mp member with active | new
    · exact Nat.lt_add_right _ (coherent.activeStreams id active)
    · cases List.mem_singleton.mp new
      exact Nat.lt_add_one _

/-! Requests. -/

/-- One request changes. -/
theorem Coherent.reviseRequest {mine : Belonging → Prop} (coherent : engine.Coherent touched running)
    (id : Nat) (f : Request → Request)
    (others : ∀ task activity, engine.loop.Unfinished task activity →
      running.map Prod.fst ≠ some task → ∀ belonging ∈ activity.phase.belongings, ¬mine belonging)
    (waiters : ∀ request, engine.requests[id]? = some request → ∀ waiter ∈ request.waiters,
      engine.loop.isPending waiter = true → waiter ∈ (f request).waiters)
    (work : ∀ request, ¬mine (.request id) →
      (f request).call = request.call ∧ (f request).stream = request.stream)
    (proper : ∀ request, engine.requests[id]? = some request → engine.Proper request →
      engine.Proper (f request)) :
    (engine.modifyRequest id f).Coherent touched running := by
  have step : Rearranged mine engine (engine.modifyRequest id f) :=
    { loop := rfl
      gate := fun _ member _ => member
      requests := by
        intro other request found
        show ∃ next, (engine.requests.modify id f)[other]? = some next ∧ _
        rw [getElem?_modify, found]
        split
        · next same =>
          subst same
          exact ⟨f request, rfl, waiters request found, work request⟩
        · exact ⟨request, rfl, fun _ member _ => member, fun _ => ⟨rfl, rfl⟩⟩
      activeCalls := fun _ member _ => member
      abortedCalls := fun _ member _ => member
      streams := fun _ stream found => ⟨stream, found, fun aborted => aborted, fun _ => rfl⟩
      events := fun _ member => member }
  refine coherent.rearranged step others coherent.gate coherent.open_gate ?_
    (coherent.same_streams step rfl rfl) coherent.activeStreams coherent.calls
  intro other request known
  have found : (engine.requests.modify id f)[other]? = some request := known
  rw [getElem?_modify] at found
  split at found
  · next same =>
    clear known
    subst same
    obtain ⟨old, known, rfl⟩ := Option.map_eq_some_iff.mp found
    exact step.proper (proper old known (coherent.requests other old known))
  · exact step.proper (coherent.requests other request found)

theorem Coherent.addRequest (coherent : engine.Coherent touched running) (generation : Int) :
    (engine.addRequest { generation }).2.Coherent touched running := by
  have step : Rearranged (fun _ => False) engine (engine.addRequest { generation }).2 :=
    { loop := rfl
      gate := fun _ member _ => member
      requests := by
        intro id request found
        refine ⟨request, ?_, fun _ member _ => member, fun _ => ⟨rfl, rfl⟩⟩
        show (engine.requests ++ _)[id]? = _
        rw [List.getElem?_append_left (List.getElem?_eq_some_iff.mp found).1, found]
      activeCalls := fun _ member _ => member
      abortedCalls := fun _ member _ => member
      streams := fun _ stream found => ⟨stream, found, id, fun _ => rfl⟩
      events := fun _ member => member }
  refine coherent.rearranged step (fun _ _ _ _ _ _ => id) coherent.gate coherent.open_gate ?_
    (coherent.same_streams step rfl rfl) coherent.activeStreams coherent.calls
  intro id request found
  have found : (engine.requests ++ [({ generation := generation } : Request)])[id]? =
      some request := found
  rcases Nat.lt_or_ge id engine.requests.length with inside | outside
  · rw [List.getElem?_append_left inside] at found
    exact step.proper (coherent.requests id request found)
  · rw [List.getElem?_append_right outside] at found
    obtain ⟨here, same⟩ := List.getElem?_eq_some_iff.mp found
    have fresh : request = ({ generation := generation } : Request) := by simpa using same.symm
    subst fresh
    exact ⟨nofun, nofun, nofun⟩

/-- Someone waits for the request to be cancelled. -/
theorem Coherent.joinWaiters (coherent : engine.Coherent touched running) {id waiter : Nat}
    (live : engine.isCancelled id = false) (bare : engine.loop.Bare waiter) :
    (engine.modifyRequest id fun r => { r with waiters := r.waiters ++ [waiter] }).Coherent
      touched running := by
  refine coherent.reviseRequest id _ (nobody_mine engine running)
    (fun _ _ _ member _ => List.mem_append_left _ member) (fun _ _ => ⟨rfl, rfl⟩) ?_
  intro request known proper
  refine ⟨fun other member => ?_, proper.attached, fun cancelled => ?_⟩
  · rcases List.mem_append.mp member with old | new
    · exact proper.waiters other old
    · cases List.mem_singleton.mp new
      exact bare
  · have cancelled : request.cancelled = true := cancelled
    simp [isCancelled, known, cancelled] at live

/-- A live request gets what it started. -/
theorem Coherent.attach (coherent : engine.Coherent touched running) {id : Nat}
    (f : Request → Request) (same : ∀ request, (f request).waiters = request.waiters)
    (still : ∀ request, (f request).cancelled = request.cancelled)
    (attached : ∀ request stream, engine.requests[id]? = some request →
      (f request).stream = some stream → stream < engine.streams.length)
    (live : engine.isCancelled id = false)
    (free : ∀ task activity, engine.loop.Unfinished task activity →
      running.map Prod.fst ≠ some task → .request id ∉ activity.phase.belongings) :
    (engine.modifyRequest id f).Coherent touched running := by
  refine coherent.reviseRequest id f ?_ (fun request _ waiter member _ => same request ▸ member)
    (fun _ other => absurd rfl other) ?_
  · intro task activity unfinished other belonging member same
    subst same
    exact free task activity unfinished other member
  · intro request known proper
    refine ⟨fun waiter member => proper.waiters waiter (same request ▸ member),
      fun stream => attached request stream known, fun cancelled => ?_⟩
    rw [still] at cancelled
    simp [isCancelled, known, cancelled] at live

/-! A request is cancelled. -/

theorem finishStream_modifyRequest (engine : Engine) (id request : Nat) (f : Request → Request) :
    (engine.modifyRequest request f).finishStream id =
      (engine.finishStream id).modifyRequest request f := by
  unfold finishStream
  rw [show (engine.modifyRequest request f).streams = engine.streams from rfl]
  cases engine.streams[id]? with
  | none => rfl
  | some stream =>
    dsimp only
    split
    · rfl
    · split <;> rfl

theorem cancelRead_modifyRequest (engine : Engine) (pending : Option Nat) (request : Nat)
    (f : Request → Request) :
    (engine.modifyRequest request f).cancelRead pending =
      (engine.cancelRead pending).modifyRequest request f := by
  cases pending <;> rfl

theorem abortStream_modifyRequest (engine : Engine) (id request : Nat) (f : Request → Request) :
    (engine.modifyRequest request f).abortStream id =
      (engine.abortStream id).modifyRequest request f := by
  unfold abortStream
  rw [show (engine.modifyRequest request f).streams = engine.streams from rfl]
  cases engine.streams[id]? with
  | none => rfl
  | some stream =>
    dsimp only
    split
    · rfl
    · rw [← finishStream_modifyRequest, ← cancelRead_modifyRequest]
      rfl

theorem cancelCall_modifyRequest (engine : Engine) (call request : Nat) (f : Request → Request) :
    (engine.modifyRequest request f).cancelCall call =
      (engine.cancelCall call).modifyRequest request f := by
  unfold cancelCall
  rw [apply_ite (Engine.modifyRequest · request f), apply_ite (Engine.modifyRequest · request f)]
  rfl

theorem stopWork_modifyRequest (engine : Engine) (work : Request) (id : Nat)
    (f : Request → Request) :
    (engine.modifyRequest id f).stopWork work = (engine.stopWork work).modifyRequest id f := by
  unfold stopWork
  split
  · next stream _ => exact abortStream_modifyRequest (engine.emit (.stoppedStream stream)) stream id f
  · next call _ _ => exact cancelCall_modifyRequest (engine.emit (.stoppedCall call)) call id f
  · rfl

/-- Stopping work leaves the requests alone and cancels at most one task. -/
theorem abortStream_frame (engine : Engine) (id : Nat) :
    (engine.abortStream id).requests = engine.requests ∧
      ((engine.abortStream id).loop = engine.loop ∨
        ∃ root, (engine.abortStream id).loop = engine.loop.cancel root) := by
  unfold abortStream
  split
  · exact ⟨rfl, Or.inl rfl⟩
  · split
    · exact ⟨rfl, Or.inl rfl⟩
    · next stream _ _ =>
      rw [(finishStream_frame _ id).1, (finishStream_frame _ id).2]
      cases stream.pending with
      | none => exact ⟨rfl, Or.inl rfl⟩
      | some read => exact ⟨rfl, Or.inr ⟨read, rfl⟩⟩

theorem cancelCall_frame (engine : Engine) (call : Nat) :
    (engine.cancelCall call).requests = engine.requests ∧
      ((engine.cancelCall call).loop = engine.loop ∨
        ∃ root, (engine.cancelCall call).loop = engine.loop.cancel root) := by
  unfold cancelCall
  split
  · exact ⟨rfl, Or.inl rfl⟩
  · split
    · exact ⟨rfl, Or.inr ⟨call, rfl⟩⟩
    · exact ⟨rfl, Or.inl rfl⟩

theorem stopWork_frame (engine : Engine) (work : Request) :
    (engine.stopWork work).requests = engine.requests ∧
      ((engine.stopWork work).loop = engine.loop ∨
        ∃ root, (engine.stopWork work).loop = engine.loop.cancel root) := by
  unfold stopWork
  split
  · next stream _ => exact abortStream_frame (engine.emit (.stoppedStream stream)) stream
  · next call _ _ => exact cancelCall_frame (engine.emit (.stoppedCall call)) call
  · exact ⟨rfl, Or.inl rfl⟩

theorem abortStream_aborted (engine : Engine) (id : Nat) {stream : Stream}
    (known : engine.streams[id]? = some stream) : ∃ found,
      (engine.abortStream id).streams[id]? = some found ∧ found.aborted = true := by
  unfold abortStream
  rw [known]
  dsimp only
  split
  · next aborted => exact ⟨stream, known, aborted⟩
  · have marked := stream_modifyStream engine id (fun s => { s with aborted := true }) known
    have same (pending : Option Nat) (other : Engine) :
        (other.cancelRead pending).streams = other.streams := by
      cases pending <;> rfl
    rw [← same stream.pending] at marked
    obtain ⟨found, known', -, aborted, -⟩ := stream_finishStream _ id marked
    exact ⟨found, known', aborted⟩

theorem Coherent.stopWork (coherent : engine.Coherent touched running) (work : Request) :
    (engine.stopWork work).Coherent touched running := by
  unfold Engine.stopWork
  split
  · exact coherent.stopStream _
  · exact coherent.stopCall _
  · exact coherent

/-- A request has its work stopped when that is stopped. -/
theorem halted_stopWork {work : Request} (attached : ∀ stream, work.stream = some stream →
    stream < engine.streams.length) :
    (engine.stopWork work).Halted { work with cancelled := true, waiters := [] } := by
  refine ⟨rfl, fun stream same => ?_, fun call free same => ?_⟩
  · have same : work.stream = some stream := same
    have known := List.getElem?_eq_getElem (attached stream same)
    unfold Engine.stopWork
    rw [same]
    exact abortStream_aborted (engine.emit (.stoppedStream stream)) stream known
  · have free : work.stream = none := free
    have same : work.call = some call := same
    have emitted : Event.stoppedCall call ∈ (engine.emit (.stoppedCall call)).events :=
      List.mem_append_right _ (List.mem_singleton_self _)
    unfold Engine.stopWork stopCall cancelCall
    rw [free, same]
    dsimp only
    split
    · exact emitted
    · split <;> exact emitted

/-- The marks of a cancelled request may as well be set last. -/
theorem cancelRequest_eq {id : Nat} {request : Request}
    (known : engine.requests[id]? = some request) (live : request.cancelled = false) :
    engine.cancelRequest id =
      ((engine.withLoop fun loop => request.waiters.foldl
        (fun l waiter => l.settle waiter (.value (.truth true))) loop).stopWork request).modifyRequest
          id fun r => { r with cancelled := true, waiters := [] } := by
  rw [← stopWork_modifyRequest]
  unfold cancelRequest
  rw [known]
  simp only [live, Bool.false_eq_true, if_false]
  rfl

theorem Coherent.cancelRequest (coherent : engine.Coherent touched running) (id : Nat) :
    (engine.cancelRequest id).Coherent touched running := by
  cases known : engine.requests[id]? with
  | none =>
    unfold Engine.cancelRequest
    rw [known]
    exact coherent
  | some request =>
    cases cancelled : request.cancelled with
    | true =>
      unfold Engine.cancelRequest
      simp only [known, cancelled, if_true]
      exact coherent
    | false =>
      rw [cancelRequest_eq known cancelled]
      have proper := coherent.requests id request known
      have settled := coherent.settleAll proper.waiters (.truth true)
      have stopped := settled.stopWork request
      have frame := stopWork_frame (engine.withLoop fun loop => request.waiters.foldl
        (fun l waiter => l.settle waiter (.value (.truth true))) loop) request
      refine stopped.reviseRequest id _ (nobody_mine _ running) ?_ (fun _ _ => ⟨rfl, rfl⟩) ?_
      · -- All who waited have been woken.
        intro other found waiter member pending
        rw [frame.1] at found
        cases known.symm.trans found
        have ended := isDone_settleAll (.truth true)
          (fun waiter member => (proper.waiters waiter member).1) (Or.inl member)
        refine absurd ?_ (Loop.not_done_of_pending pending)
        rcases frame.2 with same | ⟨root, same⟩
        · rw [same]
          exact ended
        · rw [same]
          exact Loop.isDone_cancel root ended
      · intro other found proper'
        rw [frame.1] at found
        cases known.symm.trans found
        exact ⟨nofun, proper'.attached, fun _ => halted_stopWork proper.attached⟩

end InlineCompletion.Engine
