import InlineCompletion.Proofs.Engine.Superseded

/-!
No cancellation is lost. Whatever a request waits for when it is superseded, its work is stopped by
the very step that supersedes it, and work that comes later is stopped when it is attached.
-/

namespace InlineCompletion.Engine

variable {engine : Engine} {env : Environment} {run : Run} {touched : Nat → Prop} {task : Nat}
  {phase : Phase}

/-- The stream is aborted, and the client does not know it any more. -/
def StreamStopped (engine : Engine) (stream : Nat) : Prop :=
  ∃ found, engine.streams[stream]? = some found ∧ found.aborted = true ∧ found.closed = true ∧
    stream ∉ engine.client.activeStreams

/-- The call is over, or the client was asked to cancel it. -/
def CallStopped (engine : Engine) (call : Nat) : Prop :=
  engine.loop.isDone call = true ∨ .stoppedCall call ∈ engine.events

/-! What is stopped. -/

theorem cancelRequest_twice (engine : Engine) (id : Nat) :
    (engine.cancelRequest id).cancelRequest id = engine.cancelRequest id := by
  have again (other : Engine) (cancelled : other.isCancelled id = true ∨ other.requests[id]? = none) :
      other.cancelRequest id = other := by
    unfold cancelRequest
    unfold isCancelled at cancelled
    cases known : other.requests[id]? with
    | none => rfl
    | some request =>
      rw [known] at cancelled
      simp_all
  refine again _ ?_
  unfold cancelRequest
  cases known : engine.requests[id]? with
  | none => exact Or.inr known
  | some request =>
    dsimp only
    split
    · next cancelled =>
      left
      simp [isCancelled, known, cancelled]
    · left
      unfold isCancelled
      rw [(stopWork_frame ..).1]
      show ((engine.requests.modify id _)[id]?).any (·.cancelled) = true
      rw [getElem?_modify, if_pos rfl, known]
      rfl

/-- A call that is stopped is to be cancelled, if the client still works on it and minds. -/
theorem cancel_of_stopCall {call : Nat} (minds : engine.client.ignoresCancel = false)
    (active : call ∈ engine.client.activeCalls) (pending : engine.loop.isPending call = true) :
    call ∈ (engine.stopCall call).client.abortedCalls ∧
      (engine.stopCall call).loop = engine.loop.cancel call := by
  have asked : engine.stopCall call =
      (((engine.emit (.stoppedCall call)).withClient (·.markAborted call)).withLoop
        (·.cancel call)) := by
    unfold stopCall cancelCall
    have minds : (engine.emit (.stoppedCall call)).client.ignoresCancel = false := minds
    have active : call ∈ (engine.emit (.stoppedCall call)).client.activeCalls := active
    have pending : (engine.emit (.stoppedCall call)).loop.isPending call = true := pending
    simp [minds, active, pending]
  rw [asked]
  refine ⟨?_, rfl⟩
  show call ∈ (engine.client.markAborted call).abortedCalls
  unfold Client.markAborted
  dsimp only
  split
  · assumption
  · exact List.mem_append_right _ (List.mem_singleton_self call)

theorem streamStopped_abortStream {id : Nat} {stream : Stream}
    (known : engine.streams[id]? = some stream) (orderly : engine.Orderly id stream) :
    StreamStopped (engine.abortStream id) id := by
  have already (closed : stream.closed = true) : id ∉ engine.client.activeStreams :=
    orderly.closed closed
  unfold abortStream
  rw [known]
  dsimp only
  split
  · next aborted =>
    exact ⟨stream, known, aborted, orderly.aborted aborted, already (orderly.aborted aborted)⟩
  · have marked := stream_modifyStream engine id (fun s => { s with aborted := true }) known
    have frame (pending : Option Nat) (other : Engine) :
        (other.cancelRead pending).streams = other.streams ∧
          (other.cancelRead pending).client = other.client := by
      cases pending <;> exact ⟨rfl, rfl⟩
    obtain ⟨streams, client⟩ := frame stream.pending
      (engine.modifyStream id fun s => { s with aborted := true })
    generalize (engine.modifyStream id fun s => { s with aborted := true }).cancelRead
      stream.pending = read at *
    rw [← streams] at marked
    have client : read.client = engine.client := client
    unfold finishStream
    rw [marked]
    dsimp only
    split
    · next closed => exact ⟨_, marked, rfl, closed, client ▸ already closed⟩
    · rw [if_pos orderly.reported]
      have sealed := stream_modifyStream read id
        (fun s => { s with closed := true, reports := s.reports + 1 }) marked
      refine ⟨_, sealed, rfl, rfl, fun member => ?_⟩
      have member : id ∈ read.client.activeStreams.filter (· ≠ id) := member
      simp at member

/-- A cancelled request stops a call that it is given. -/
theorem attachCall_of_isCancelled {request : Nat} (cancelled : engine.isCancelled request = true)
    (call : Nat) : engine.attachCall request call =
      (engine.modifyRequest request fun r => { r with call := some call }).stopCall call := by
  unfold attachCall
  rw [cancelled]
  rfl

theorem streamStopped_attachStream {request id : Nat} {stream : Stream}
    (cancelled : engine.isCancelled request = true) (known : engine.streams[id]? = some stream)
    (orderly : engine.Orderly id stream) : StreamStopped (engine.attachStream request id) id := by
  unfold attachStream
  rw [cancelled]
  have known' : ((engine.modifyRequest request fun r => { r with stream := some id }).emit
      (.stoppedStream id)).streams[id]? = some stream := known
  exact streamStopped_abortStream known'
    ⟨orderly.reported, orderly.aborted, orderly.closed, orderly.pending⟩

/-! The step that supersedes a request. -/

/-- The task of a request does not run in the turn that supersedes it. -/
theorem unwoken_of_supersedes (known : engine.phaseOf task = some phase)
    (works : phase.run? = some run) {move : Move} {orchestrator : Nat}
    (replaced : engine.supersedes? move = some orchestrator) (turns : move = .turn) :
    engine.woken? ≠ some task := by
  subst turns
  intro woken
  obtain ⟨activity, unfinished, rfl⟩ := phaseOf_eq_some_iff.mp known
  have begins : engine.begins? = some orchestrator := replaced
  unfold begins? at begins
  rw [woken] at begins
  simp only [Option.bind_some, unfinished.1, Phase.starts?_of_works works, ite_self] at begins
  cases begins

/-- What the task of a cancelled request works with is stopped. -/
theorem Coherent.stopped (coherent : engine.Coherent touched none)
    (known : engine.phaseOf task = some phase) (works : phase.run? = some run) {generation : Int}
    (gone : engine.markOf run.request = some (true, generation)) :
    (∀ call owner, phase = .calling call owner → CallStopped engine call) ∧
    (∀ stream consumer, phase = .reading stream consumer → StreamStopped engine stream) ∧
    ∀ stream closer, phase = .closing stream closer → StreamStopped engine stream := by
  obtain ⟨activity, unfinished, rfl⟩ := phaseOf_eq_some_iff.mp known
  obtain ⟨request, asked, -, streams, calls⟩ := coherent.halted gone
  have stopped {stream : Nat} (attached : ∃ request, engine.requests[run.request]? = some request ∧
      request.stream = some stream) : StreamStopped engine stream := by
    obtain ⟨request', asked', reads⟩ := attached
    cases asked.symm.trans asked'
    obtain ⟨found, known, aborted⟩ := streams stream reads
    have orderly := coherent.streams stream found known
    exact ⟨found, known, aborted, orderly.aborted aborted, orderly.closed (orderly.aborted aborted)⟩
  have fits := coherent.fits task activity unfinished nofun
  refine ⟨fun call owner calls' => ?_, fun stream consumer reads => ?_, fun stream closer closes => ?_⟩
  · obtain ⟨run', rfl, -, -, request', asked', mine, free⟩ := fits.of_calling calls'
    rw [calls'] at works
    cases works
    cases asked.symm.trans asked'
    exact Or.inr (calls call free mine)
  · obtain ⟨run', pieces, -, -, rfl, -, -, attached, -⟩ := fits.of_reading reads
    rw [reads] at works
    cases works
    exact stopped attached
  · obtain ⟨run', outcome, -, rfl, -, attached, -⟩ := fits.of_closing closes
    rw [closes] at works
    cases works
    exact stopped attached

/-- The move that supersedes a request cancels it and stops what it waits for, and no event is that
of the request from then on. Whatever is attached to a cancelled request is stopped as well, a call
that the client still works on is cancelled when it is stopped, and nothing is cancelled twice. -/
theorem cancellation_reaches_work (env : Environment) (client : Client)
    (seats : List (Settings × Cache Float)) (past next : List Move) (move : Move)
    (known : (reached env client seats past).phaseOf task = some phase)
    (works : phase.run? = some run)
    (replaced : (reached env client seats past).supersedes? move = some run.orchestrator) :
    (reached env client seats (past ++ [move])).isCancelled run.request = true ∧
    ((∀ call owner, phase = .calling call owner →
        CallStopped (reached env client seats (past ++ [move])) call) ∧
      (∀ stream consumer, phase = .reading stream consumer →
        StreamStopped (reached env client seats (past ++ [move])) stream) ∧
      ∀ stream closer, phase = .closing stream closer →
        StreamStopped (reached env client seats (past ++ [move])) stream) ∧
    Tells (· ≠ run.request) (reached env client seats (past ++ [move]))
      (reached env client seats (past ++ move :: next)) ∧
    (∀ (engine : Engine) request call, engine.isCancelled request = true →
      engine.attachCall request call =
        (engine.modifyRequest request fun r => { r with call := some call }).stopCall call) ∧
    (∀ (engine : Engine) request id stream, engine.isCancelled request = true →
      engine.streams[id]? = some stream → engine.Orderly id stream →
      StreamStopped (engine.attachStream request id) id) ∧
    (∀ (engine : Engine) call, engine.client.ignoresCancel = false →
      call ∈ engine.client.activeCalls → engine.loop.isPending call = true →
      call ∈ (engine.stopCall call).client.abortedCalls ∧
        (engine.stopCall call).loop = engine.loop.cancel call) ∧
    ∀ (engine : Engine) request,
      (engine.cancelRequest request).cancelRequest request = engine.cancelRequest request := by
  have after : reached env client seats (past ++ [move]) =
      (reached env client seats past).apply env move := play_append ..
  have later : reached env client seats (past ++ move :: next) =
      (reached env client seats (past ++ [move])).play env next := by
    rw [← play_append, List.append_assoc]
    rfl
  obtain ⟨activity, unfinished, same⟩ := phaseOf_eq_some_iff.mp known
  have mine : (reached env client seats past).runOf task = some run :=
    runOf_eq_some_iff.mpr ⟨activity, unfinished, same ▸ works⟩
  have coherent := coherent_play env client seats past
  have ruled := ruled_play env client seats past
  have coherent' := coherent_play env client seats (past ++ [move])
  have ruled' := ruled_play env client seats (past ++ [move])
  have stale : (reached env client seats (past ++ [move])).Superseded run := by
    rw [after]
    exact (ruled.superseded_apply_iff env coherent mine move).mpr (Or.inr replaced)
  -- The task waits on while another one, or someone from outside, supersedes its request.
  obtain ⟨found, unfinished', kept, -⟩ := (moved_apply env coherent move).unfinished coherent unfinished
    (unwoken_of_supersedes known works replaced)
  rw [← after] at unfinished'
  have known' : (reached env client seats (past ++ [move])).phaseOf task = some phase :=
    phaseOf_eq_some_iff.mpr ⟨found, unfinished', kept.trans same⟩
  have mine' : (reached env client seats (past ++ [move])).runOf task = some run :=
    runOf_eq_some_iff.mpr ⟨found, unfinished', (kept.trans same) ▸ works⟩
  obtain ⟨generation, gone⟩ := ruled'.gone mine' stale
  refine ⟨?_, coherent'.stopped known' works gone, ?_, fun engine request call cancelled =>
    attachCall_of_isCancelled cancelled call, fun engine request id stream cancelled found orderly =>
    streamStopped_attachStream cancelled found orderly, fun engine call minds active pending =>
    cancel_of_stopCall minds active pending, cancelRequest_twice⟩
  · obtain ⟨request, asked, same⟩ := Option.map_eq_some_iff.mp gone
    have cancelled : request.cancelled = true := congrArg Prod.fst same
    simp [isCancelled, asked, cancelled]
  · have all := coherent_play env client seats (past ++ [move])
    rw [later]
    exact tells_play env (all.mono fun task member => List.mem_append_left next member) next
      (fun task member => List.mem_append_right _ member) gone

/-- The call of a completion is stopped when the completion is cancelled. -/
theorem cancellation_reaches_call :
    (solo whole [.request 0 blank ⟨0, 0⟩, .turn]).phaseOf 0 = some (.calling 1 (some firstRun)) ∧
      (solo whole [.request 0 blank ⟨0, 0⟩, .turn]).supersedes? (.cancel 0) = some 0 ∧
      CallStopped (solo whole [.request 0 blank ⟨0, 0⟩, .turn, .cancel 0]) 1 := by
  have known : (solo whole [.request 0 blank ⟨0, 0⟩, .turn]).phaseOf 0 =
      some (.calling 1 (some firstRun)) := rfl
  obtain ⟨-, ⟨calls, -⟩, -⟩ := cancellation_reaches_work _ _ _ _ [] (.cancel 0) known rfl rfl
  exact ⟨known, rfl, calls 1 _ rfl⟩

end InlineCompletion.Engine
