import InlineCompletion.Proofs.Engine.Upkeep

/-!
The operations on the client, the streams and the requests. Each keeps the state coherent when what
it changes belongs to nobody else who waits.
-/

namespace InlineCompletion.Engine

variable {engine : Engine} {touched : Nat → Prop} {running : Option (Nat × Outcome)}

/-! What nobody who waits looks at. -/

theorem map_modify_of_same {α β : Type} {f : α → α} {g : α → β} (same : ∀ x, g (f x) = g x)
    (list : List α) (id : Nat) : (list.modify id f).map g = list.map g := by
  refine List.ext_getElem? fun k => ?_
  rw [List.getElem?_map, List.getElem?_map, List.getElem?_modify]
  split
  · cases list[k]? <;> simp [same]
  · simp

theorem alike_emit (engine : Engine) (event : Event) : Alike engine (engine.emit event) :=
  ⟨rfl, rfl, id, rfl, rfl, rfl, rfl, rfl, fun _ => List.mem_append_left _⟩

theorem alike_modifyOrchestrator (engine : Engine) (id : Nat) (f : Orchestrator → Orchestrator) :
    Alike engine (engine.modifyOrchestrator id f) :=
  ⟨rfl, rfl, fun known => known, rfl, rfl, rfl, rfl, rfl, fun _ member => member⟩

theorem alike_modifySource (engine : Engine) (id : Nat) (f : Source → Source) :
    Alike engine (engine.modifySource id f) := by
  have same (stream : Stream) :
      ({ stream with source := f stream.source } : Stream).shell = stream.shell := rfl
  exact ⟨rfl, rfl, fun known => known, rfl, rfl, rfl, rfl,
    map_modify_of_same same engine.streams id, fun _ member => member⟩

theorem alike_takeReply (engine : Engine) (call : Call) : Alike engine (engine.takeReply call).2 :=
  ⟨rfl, rfl, id, rfl, rfl, rfl, rfl, rfl, fun _ => List.mem_append_left _⟩

theorem alike_openSource (engine : Engine) (id : Nat) : Alike engine (engine.openSource id) := by
  unfold openSource
  split
  · exact ⟨rfl, rfl, fun known => known, rfl, rfl, rfl, rfl, rfl, fun _ member => member⟩
  · next call _ => exact (alike_takeReply engine call).trans (alike_modifySource ..)

theorem alike_bidFarewell (engine : Engine) (id : Nat) : Alike engine (engine.bidFarewell id).2 := by
  have same : Alike engine engine :=
    ⟨rfl, rfl, fun known => known, rfl, rfl, rfl, rfl, rfl, fun _ member => member⟩
  unfold bidFarewell
  split
  · exact same
  · split
    · exact same
    · split
      all_goals
        dsimp only
        exact alike_modifySource ..

theorem alike_resumeFarewell (engine : Engine) (id : Nat) (outcome : Outcome) :
    Alike engine (engine.resumeFarewell id outcome).2 := by
  unfold resumeFarewell
  split
  · exact alike_bidFarewell ..
  · split
    · exact alike_bidFarewell ..
    · dsimp only
      exact alike_modifySource ..

/-! The gate of the client. -/

/-- Streams stay in order where neither they nor the set of active ones change. -/
theorem Coherent.same_streams {mine : Belonging → Prop} {new : Engine}
    (coherent : engine.Coherent touched running) (step : Rearranged mine engine new)
    (streams : new.streams = engine.streams)
    (active : new.client.activeStreams = engine.client.activeStreams) (id : Nat) (stream : Stream)
    (found : new.streams[id]? = some stream) : new.Orderly id stream := by
  rw [streams] at found
  obtain ⟨reported, aborted, closed, pending⟩ := coherent.streams id stream found
  exact ⟨reported, aborted, active ▸ closed, fun read known => step.does (pending read known)⟩

theorem Coherent.same_requests {mine : Belonging → Prop} {new : Engine}
    (coherent : engine.Coherent touched running) (step : Rearranged mine engine new)
    (requests : new.requests = engine.requests) (id : Nat) (request : Request)
    (found : new.requests[id]? = some request) : new.Proper request :=
  step.proper (coherent.requests id request (requests ▸ found))

theorem Coherent.joinGate (coherent : engine.Coherent touched running) {waiter : Nat}
    (closed : engine.client.gateOpen = false) (bare : engine.loop.Bare waiter) :
    (engine.withClient fun c => { c with gateWaiters := c.gateWaiters ++ [waiter] }).Coherent
      touched running := by
  have step : Rearranged (fun _ => False) engine
      (engine.withClient fun c => { c with gateWaiters := c.gateWaiters ++ [waiter] }) :=
    { loop := rfl
      gate := fun _ member _ => List.mem_append_left _ member
      requests := fun _ request found => ⟨request, found, fun _ member _ => member, fun _ => ⟨rfl, rfl⟩⟩
      activeCalls := fun _ member _ => member
      abortedCalls := fun _ member _ => member
      streams := fun _ stream found => ⟨stream, found, id, fun _ => rfl⟩
      events := fun _ member => member }
  refine coherent.rearranged step (fun _ _ _ _ _ _ => id) ?_ ?_ (coherent.same_requests step rfl)
    ?_ coherent.activeStreams coherent.calls
  · intro other member
    rcases List.mem_append.mp member with known | new
    · exact coherent.gate other known
    · cases List.mem_singleton.mp new
      exact bare
  · intro opened
    cases closed.symm.trans opened
  · intro id stream found
    obtain ⟨reported, aborted, closed, pending⟩ := coherent.streams id stream found
    exact ⟨reported, aborted, closed, fun read known => step.does (pending read known)⟩

theorem isDone_settle {loop : Loop Phase} {id : Nat} (known : id < loop.futures.length)
    (o : Outcome) : (loop.settle id o).isDone id = true := by
  by_cases pending : loop.isPending id = true
  · rw [Loop.isDone_iff, Loop.outcome?_settle, if_pos ⟨rfl, pending⟩]
    nofun
  · exact Loop.isDone_settle_of_isDone id o (Loop.isDone_of_not_pending known pending)

theorem isDone_settleAll {loop : Loop Phase} {waiters : List Nat} (v : Value)
    (known : ∀ waiter ∈ waiters, waiter < loop.futures.length) {id : Nat}
    (member : id ∈ waiters ∨ loop.isDone id = true) :
    (waiters.foldl (fun l waiter => l.settle waiter (.value v)) loop).isDone id = true := by
  induction waiters generalizing loop with
  | nil => exact member.elim nofun fun ended => ended
  | cons waiter rest ih =>
    refine ih (fun other later => ?_) ?_
    · rw [Loop.length_settle]
      exact known other (List.mem_cons_of_mem _ later)
    · rcases member with member | ended
      · rcases List.mem_cons.mp member with rfl | later
        · exact Or.inr (isDone_settle (known id (List.mem_cons_self ..)) _)
        · exact Or.inl later
      · exact Or.inr (Loop.isDone_settle_of_isDone waiter _ ended)

/-- Those who have been let go need not be kept any longer. -/
theorem Coherent.leaveGate (coherent : engine.Coherent touched running) (opened : Bool)
    (kept : List Nat) (fewer : ∀ waiter ∈ kept, waiter ∈ engine.client.gateWaiters)
    (gone : ∀ waiter ∈ engine.client.gateWaiters, waiter ∉ kept → engine.loop.isDone waiter = true)
    (open_gate : opened = true → kept = []) :
    (engine.withClient fun c => { c with gateOpen := opened, gateWaiters := kept }).Coherent
      touched running := by
  have step : Rearranged (fun _ => False) engine
      (engine.withClient fun c => { c with gateOpen := opened, gateWaiters := kept }) :=
    { loop := rfl
      gate := fun waiter member pending => Decidable.byContradiction fun absent =>
        Loop.not_done_of_pending pending (gone waiter member absent)
      requests := fun _ request found => ⟨request, found, fun _ member _ => member, fun _ => ⟨rfl, rfl⟩⟩
      activeCalls := fun _ member _ => member
      abortedCalls := fun _ member _ => member
      streams := fun _ stream found => ⟨stream, found, id, fun _ => rfl⟩
      events := fun _ member => member }
  exact coherent.rearranged step (fun _ _ _ _ _ _ => id)
    (fun waiter member => coherent.gate waiter (fewer waiter member)) open_gate
    (coherent.same_requests step rfl) (coherent.same_streams step rfl rfl) coherent.activeStreams
    coherent.calls

theorem Coherent.openGate (coherent : engine.Coherent touched running) :
    engine.openGate.Coherent touched running := by
  have settled := coherent.settleAll coherent.gate .nothing
  refine settled.leaveGate true [] nofun (fun waiter member _ => ?_) fun _ => rfl
  exact isDone_settleAll .nothing (fun other known => (coherent.gate other known).1) (Or.inl member)

theorem Coherent.proceed (coherent : engine.Coherent touched running) (waiter : Nat) :
    (engine.proceed waiter).Coherent touched running := by
  unfold Engine.proceed
  split
  case isFalse => exact coherent
  next member =>
  have bare := coherent.gate waiter member
  have settled := coherent.settle bare .nothing
  refine settled.leaveGate engine.client.gateOpen (engine.client.gateWaiters.filter (· ≠ waiter))
    (fun other kept => (List.mem_filter.mp kept).1) (fun other known gone => ?_) fun opened => ?_
  · have same : other = waiter := by
      simpa [known, show other ∈ engine.client.gateWaiters from known] using gone
    exact same ▸ isDone_settle bare.1 _
  · have none : engine.client.gateWaiters = [] := coherent.open_gate opened
    rw [none]
    rfl

theorem Coherent.closeGate (coherent : engine.Coherent touched running) :
    engine.closeGate.Coherent touched running :=
  coherent.alike ⟨rfl, rfl, nofun, rfl, rfl, rfl, rfl, rfl, fun _ member => member⟩

/-! The calls of the client. -/

theorem Coherent.addCall (coherent : engine.Coherent touched running) {call : Nat}
    (works : engine.Does .answer call) :
    (engine.withClient (·.addCall call)).Coherent touched running := by
  have step : Rearranged (fun _ => False) engine (engine.withClient (·.addCall call)) :=
    { loop := rfl
      gate := fun _ member _ => member
      requests := fun _ request found => ⟨request, found, fun _ member _ => member, fun _ => ⟨rfl, rfl⟩⟩
      activeCalls := fun _ member _ => List.mem_append_left _ member
      abortedCalls := fun _ member _ => member
      streams := fun _ stream found => ⟨stream, found, id, fun _ => rfl⟩
      events := fun _ member => member }
  refine coherent.rearranged step (fun _ _ _ _ _ _ => id) coherent.gate coherent.open_gate
    (coherent.same_requests step rfl) (coherent.same_streams step rfl rfl) coherent.activeStreams ?_
  intro other member
  rcases List.mem_append.mp member with known | new
  · exact coherent.calls other known
  · cases List.mem_singleton.mp new
    exact works

theorem Coherent.dropCall (coherent : engine.Coherent touched running) {call : Nat}
    (free : ∀ task activity, engine.loop.Unfinished task activity →
      running.map Prod.fst ≠ some task → .call call ∉ activity.phase.belongings) :
    (engine.withClient (·.dropCall call)).Coherent touched running := by
  have keeps {calls : List Nat} {other : Nat} (member : other ∈ calls)
      (different : ¬Belonging.call other = .call call) : other ∈ calls.filter (· ≠ call) := by
    refine List.mem_filter.mpr ⟨member, ?_⟩
    simpa using different
  have step : Rearranged (· = .call call) engine (engine.withClient (·.dropCall call)) :=
    { loop := rfl
      gate := fun _ member _ => member
      requests := fun _ request found => ⟨request, found, fun _ member _ => member, fun _ => ⟨rfl, rfl⟩⟩
      activeCalls := fun _ => keeps
      abortedCalls := fun _ => keeps
      streams := fun _ stream found => ⟨stream, found, id, fun _ => rfl⟩
      events := fun _ member => member }
  refine coherent.rearranged step ?_ coherent.gate coherent.open_gate (coherent.same_requests step rfl)
    (coherent.same_streams step rfl rfl) coherent.activeStreams ?_
  · intro task activity unfinished other belonging member same
    subst same
    exact free task activity unfinished other member
  · exact fun other member => coherent.calls other (List.mem_filter.mp member).1

theorem Coherent.markAborted (coherent : engine.Coherent touched running) (call : Nat) :
    (engine.withClient (·.markAborted call)).Coherent touched running := by
  have step : Rearranged (fun _ => False) engine (engine.withClient (·.markAborted call)) :=
    { loop := rfl
      gate := fun _ member _ => member
      requests := fun _ request found => ⟨request, found, fun _ member _ => member, fun _ => ⟨rfl, rfl⟩⟩
      activeCalls := fun _ member _ => member
      abortedCalls := by
        intro other member _
        show other ∈ if call ∈ engine.client.abortedCalls then _ else _
        split
        · exact member
        · exact List.mem_append_left _ member
      streams := fun _ stream found => ⟨stream, found, id, fun _ => rfl⟩
      events := fun _ member => member }
  exact coherent.rearranged step (fun _ _ _ _ _ _ => id) coherent.gate coherent.open_gate
    (coherent.same_requests step rfl) (coherent.same_streams step rfl rfl) coherent.activeStreams
    coherent.calls

/-! Streams. -/

theorem getElem?_modify {α : Type} (list : List α) (id k : Nat) (f : α → α) :
    (list.modify id f)[k]? = if k = id then list[k]?.map f else list[k]? := by
  rw [List.getElem?_modify]
  by_cases same : id = k
  · simp [same]
  · simp [same, Ne.symm same]

/-- One stream changes, and some streams are active no longer. -/
theorem Coherent.reviseStream {mine : Belonging → Prop} (coherent : engine.Coherent touched running)
    (id : Nat) (f : Stream → Stream) (kept : List Nat)
    (others : ∀ task activity, engine.loop.Unfinished task activity →
      running.map Prod.fst ≠ some task → ∀ belonging ∈ activity.phase.belongings, ¬mine belonging)
    (pending : ∀ stream, ¬mine (.stream id) → (f stream).pending = stream.pending)
    (aborts : ∀ stream, stream.aborted = true → (f stream).aborted = true)
    (fewer : ∀ other ∈ kept, other ∈ engine.client.activeStreams)
    (orderly : ∀ stream, engine.streams[id]? = some stream → engine.Orderly id stream →
      (f stream).reported = true ∧ ((f stream).aborted = true → (f stream).closed = true) ∧
      ((f stream).closed = true → id ∉ kept) ∧
      ∀ read, (f stream).pending = some read → engine.Does (.pull id) read) :
    ({ engine with
      streams := engine.streams.modify id f
      client := { engine.client with activeStreams := kept } } : Engine).Coherent touched running := by
  have step : Rearranged mine engine { engine with
      streams := engine.streams.modify id f
      client := { engine.client with activeStreams := kept } } :=
    { loop := rfl
      gate := fun _ member _ => member
      requests := fun _ request found => ⟨request, found, fun _ member _ => member, fun _ => ⟨rfl, rfl⟩⟩
      activeCalls := fun _ member _ => member
      abortedCalls := fun _ member _ => member
      streams := by
        intro other stream found
        rw [getElem?_modify, found]
        split
        · next same =>
          subst same
          exact ⟨f stream, rfl, aborts stream, pending stream⟩
        · exact ⟨stream, rfl, fun aborted => aborted, fun _ => rfl⟩
      events := fun _ member => member }
  refine coherent.rearranged step others coherent.gate coherent.open_gate
    (coherent.same_requests step rfl) ?_ ?_ coherent.calls
  · intro other stream found
    rw [getElem?_modify] at found
    split at found
    · next same =>
      subst same
      obtain ⟨old, known, rfl⟩ := Option.map_eq_some_iff.mp found
      obtain ⟨reported, aborted, closed, reads⟩ :=
        orderly old known (coherent.streams other old known)
      exact ⟨reported, aborted, closed, fun read pending' => step.does (reads read pending')⟩
    · obtain ⟨reported, aborted, closed, reads⟩ := coherent.streams other stream found
      exact ⟨reported, aborted, fun ended member => closed ended (fewer other member),
        fun read pending' => step.does (reads read pending')⟩
  · intro other member
    rw [List.length_modify]
    exact coherent.activeStreams other (fewer other member)

theorem nobody_mine (engine : Engine) (running : Option (Nat × Outcome)) (task : Nat)
    (activity : Activity Phase) (_ : engine.loop.Unfinished task activity)
    (_ : running.map Prod.fst ≠ some task) (belonging : Belonging)
    (_ : belonging ∈ activity.phase.belongings) : ¬(fun _ : Belonging => False) belonging :=
  id

/-- The reader of a stream begins or ends a read. -/
theorem Coherent.setPending (coherent : engine.Coherent touched running) {id : Nat}
    (read : Option Nat) (does : ∀ task, read = some task → engine.Does (.pull id) task)
    (free : ∀ task activity, engine.loop.Unfinished task activity →
      running.map Prod.fst ≠ some task → .stream id ∉ activity.phase.belongings) :
    (engine.modifyStream id fun s => { s with pending := read }).Coherent touched running := by
  refine coherent.reviseStream id _ engine.client.activeStreams ?_
    (fun _ other => absurd rfl other) (fun _ aborted => aborted) (fun _ member => member) ?_
  · intro task activity unfinished other belonging member same
    subst same
    exact free task activity unfinished other member
  · exact fun stream _ orderly => ⟨orderly.reported, orderly.aborted, orderly.closed, does⟩

/-- A stream is closed, and perhaps aborted too. -/
theorem Coherent.seal (coherent : engine.Coherent touched running) (id : Nat)
    {f : Stream → Stream} (reported : ∀ stream, (f stream).reported = stream.reported)
    (closes : ∀ stream, (f stream).closed = true)
    (pending : ∀ stream, (f stream).pending = stream.pending)
    (aborts : ∀ stream, stream.aborted = true → (f stream).aborted = true) :
    ((engine.modifyStream id f).withClient (·.dropStream id)).Coherent touched running := by
  refine coherent.reviseStream id f (engine.client.activeStreams.filter (· ≠ id))
    (nobody_mine engine running) (fun stream _ => pending stream) aborts
    (fun _ member => (List.mem_filter.mp member).1) fun stream _ orderly => ?_
  refine ⟨(reported stream).trans orderly.reported, fun _ => closes stream, fun _ member => ?_, ?_⟩
  · have different := (List.mem_filter.mp member).2
    simp at different
  · exact fun read known => orderly.pending read ((pending stream).symm.trans known)

theorem Coherent.finishStream (coherent : engine.Coherent touched running) (id : Nat) :
    (engine.finishStream id).Coherent touched running := by
  unfold Engine.finishStream
  split
  · exact coherent
  · next stream found =>
    split
    · exact coherent
    · rw [if_pos (coherent.streams id stream found).reported]
      exact coherent.seal id (fun _ => rfl) (fun _ => rfl) (fun _ => rfl) fun _ aborted => aborted

theorem finishStream_withLoop (engine : Engine) (id : Nat) (f : Loop Phase → Loop Phase) :
    (engine.withLoop f).finishStream id = (engine.finishStream id).withLoop f := by
  unfold finishStream
  rw [show (engine.withLoop f).streams = engine.streams from rfl]
  cases engine.streams[id]? with
  | none => rfl
  | some stream =>
    dsimp only
    split
    · rfl
    · split <;> rfl

theorem finishStream_frame (engine : Engine) (id : Nat) :
    (engine.finishStream id).loop = engine.loop ∧
      (engine.finishStream id).requests = engine.requests := by
  unfold finishStream
  split
  · exact ⟨rfl, rfl⟩
  · split
    · exact ⟨rfl, rfl⟩
    · split <;> exact ⟨rfl, rfl⟩

/-- A stream that has been finished is closed, and otherwise as it was. -/
theorem stream_finishStream (engine : Engine) (id : Nat) {stream : Stream}
    (known : engine.streams[id]? = some stream) : ∃ found,
      (engine.finishStream id).streams[id]? = some found ∧ found.closed = true ∧
      found.aborted = stream.aborted ∧ found.pending = stream.pending := by
  unfold finishStream
  rw [known]
  dsimp only
  split
  · next closed => exact ⟨stream, known, closed, rfl, rfl⟩
  · split
    · refine ⟨{ stream with closed := true, reports := stream.reports + 1 }, ?_, rfl, rfl, rfl⟩
      show (engine.streams.modify id _)[id]? = _
      rw [getElem?_modify, if_pos rfl, known]
      rfl
    · refine ⟨{ stream with closed := true }, ?_, rfl, rfl, rfl⟩
      show (engine.streams.modify id _)[id]? = _
      rw [getElem?_modify, if_pos rfl, known]
      rfl

theorem stream_modifyStream (engine : Engine) (id : Nat) (f : Stream → Stream) {stream : Stream}
    (known : engine.streams[id]? = some stream) :
    (engine.modifyStream id f).streams[id]? = some (f stream) := by
  show (engine.streams.modify id f)[id]? = _
  rw [getElem?_modify, if_pos rfl, known]
  rfl

theorem Does.congr {new : Engine} {errand : Errand} {task : Nat} (does : engine.Does errand task)
    (loop : new.loop = engine.loop) (requests : new.requests = engine.requests) :
    new.Does errand task := by
  unfold Does at does ⊢
  rw [loop]
  refine ⟨does.1, fun activity unfinished => ?_⟩
  have doing := does.2 activity unfinished
  cases errand with
  | watch id =>
    unfold Doing at doing ⊢
    rw [loop, requests]
    exact doing
  | answer => exact doing
  | pull id => exact doing

/-- What an abort does to a stream before it cancels the read. -/
theorem Coherent.abortFinish (coherent : engine.Coherent touched running) (id : Nat) :
    ((engine.modifyStream id fun s => { s with aborted := true }).finishStream id).Coherent
      touched running := by
  unfold Engine.finishStream
  have look : (engine.modifyStream id fun s => { s with aborted := true }).streams[id]? =
      engine.streams[id]?.map fun s => { s with aborted := true } := by
    show (engine.streams.modify id _)[id]? = _
    rw [getElem?_modify, if_pos rfl]
  rw [look]
  cases found : engine.streams[id]? with
  | none =>
    refine coherent.reviseStream id _ engine.client.activeStreams (nobody_mine engine running)
      (fun _ _ => rfl) (fun _ _ => rfl) (fun _ member => member) ?_
    intro stream known
    cases found.symm.trans known
  | some stream =>
    have orderly := coherent.streams id stream found
    dsimp only [Option.map_some]
    split
    · next closed =>
      refine coherent.reviseStream id _ engine.client.activeStreams (nobody_mine engine running)
        (fun _ _ => rfl) (fun _ _ => rfl) (fun _ member => member) ?_
      intro other known orderly
      cases found.symm.trans known
      exact ⟨orderly.reported, fun _ => closed, orderly.closed, orderly.pending⟩
    · rw [if_pos orderly.reported]
      have merged : ((engine.modifyStream id fun s => { s with aborted := true }).modifyStream id
          fun s => { s with closed := true, reports := s.reports + 1 }) = engine.modifyStream id
          fun s => { s with aborted := true, closed := true, reports := s.reports + 1 } := by
        unfold modifyStream
        simp only [List.modify_modify_eq]
        rfl
      rw [merged]
      exact coherent.seal id (fun _ => rfl) (fun _ => rfl) (fun _ => rfl) fun _ _ => rfl

/-! Cancelling a task that works for another one. -/

theorem Doing.run?_eq_none {errand : Errand} {activity : Activity Phase}
    (doing : engine.Doing errand activity) : activity.phase.run? = none := by
  cases errand with
  | watch id =>
    rcases doing with phase | ⟨phase, -⟩
    all_goals rw [phase]; rfl
  | answer =>
    rcases doing with ⟨_, phase⟩ | ⟨_, phase⟩
    all_goals rw [phase]; rfl
  | pull id =>
    rcases doing with phase | phase
    all_goals rw [phase]; rfl

theorem Doing.isCompletion_eq_false {errand : Errand} {activity : Activity Phase}
    (doing : engine.Doing errand activity) : activity.phase.isCompletion = false := by
  cases errand with
  | watch id =>
    rcases doing with phase | ⟨phase, -⟩
    all_goals rw [phase]; rfl
  | answer =>
    rcases doing with ⟨_, phase⟩ | ⟨_, phase⟩
    all_goals rw [phase]; rfl
  | pull id =>
    rcases doing with phase | phase
    all_goals rw [phase]; rfl

/-! A task does only one kind of errand, and reads only one stream. -/

theorem Doing.of_watch {id : Nat} {errand : Errand} {activity : Activity Phase}
    (doing : engine.Doing (.watch id) activity) (other : engine.Doing errand activity) :
    ∃ request, errand = .watch request := by
  cases errand with
  | watch request => exact ⟨request, rfl⟩
  | answer =>
    rcases doing with phase | ⟨phase, -⟩ <;> rcases other with ⟨_, phase'⟩ | ⟨_, phase'⟩
    all_goals cases phase.symm.trans phase'
  | pull stream =>
    rcases doing with phase | ⟨phase, -⟩ <;> rcases other with phase' | phase'
    all_goals cases phase.symm.trans phase'

theorem Doing.of_answer {errand : Errand} {activity : Activity Phase}
    (doing : engine.Doing .answer activity) (other : engine.Doing errand activity) :
    errand = .answer := by
  cases errand with
  | watch request =>
    obtain ⟨_, same⟩ := other.of_watch doing
    cases same
  | answer => rfl
  | pull stream =>
    rcases doing with ⟨_, phase⟩ | ⟨_, phase⟩ <;> rcases other with phase' | phase'
    all_goals cases phase.symm.trans phase'

theorem Doing.of_pull {id : Nat} {errand : Errand} {activity : Activity Phase}
    (doing : engine.Doing (.pull id) activity) (other : engine.Doing errand activity) :
    errand = .pull id := by
  cases errand with
  | watch request =>
    obtain ⟨_, same⟩ := other.of_watch doing
    cases same
  | answer => cases other.of_answer doing
  | pull stream =>
    rcases doing with phase | phase <;> rcases other with phase' | phase'
    · simpa using phase'.symm.trans phase
    · cases phase.symm.trans phase'
    · cases phase.symm.trans phase'
    · simpa using phase'.symm.trans phase

theorem Does.leaf (coherent : engine.Coherent touched running) {errand : Errand} {task : Nat}
    (does : engine.Does errand task) : engine.loop.Leaf task := by
  intro activity target unfinished waits
  by_cases runs : running.map Prod.fst = some task
  · obtain ⟨found, known, idle⟩ := coherent.sound.runs task runs
    cases unfinished.unique known
    cases idle.symm.trans waits
  · have works := (does.2 activity unfinished).run?_eq_none
    cases coherent.fits task activity unfinished runs with
    | start _ _ _ idle _ => cases idle.symm.trans waits
    | watching _ sleeps =>
      obtain ⟨waiter, waits', bare⟩ := sleeps
      cases waits.symm.trans waits'
      exact bare
    | answering _ _ held | pulling _ _ held =>
      obtain ⟨waiter, waits', bare, -⟩ := held
      cases waits.symm.trans waits'
      exact bare
    | debouncing _ _ phase | unwinding _ _ _ phase | calling _ _ phase
    | reading _ _ _ _ _ phase | closing _ _ _ _ phase =>
      rw [phase] at works
      cases works

/-- The one for whom the task works must not be left in the dark. -/
theorem Coherent.cancelErrand (coherent : engine.Coherent touched running) {errand : Errand}
    {child : Nat} (does : engine.Does errand child)
    (watch : ∀ request, errand = .watch request → ∀ task activity owner,
      engine.loop.Unfinished task activity → running.map Prod.fst ≠ some task →
      activity.phase ≠ .debouncing child owner)
    (answer : errand = .answer → child ∈ engine.client.abortedCalls)
    (pull : ∀ id found, errand = .pull id → engine.streams[id]? = some found →
      found.aborted = true) :
    (engine.withLoop (·.cancel child)).Coherent touched running := by
  obtain ⟨known, known'⟩ := does.1
  refine coherent.cancel known' fun task activity unfinished others => ?_
  have leaf := Does.leaf coherent does
  have fits := coherent.fits task activity unfinished others
  -- Only the child is struck, and only while it does its errand.
  have doing {last : Nat} (struck : engine.loop.Chained child last) :
      last = child ∧ ∃ found, engine.loop.Unfinished child found ∧ engine.Doing errand found := by
    obtain rfl := leaf.chained struck
    obtain ⟨-, found, unfinished'⟩ := struck
    exact ⟨rfl, found, unfinished', does.2 found unfinished'⟩
  refine ⟨fun struck works => ?_, fun target owner phase struck => ?_,
    fun call owner phase struck => ?_, fun stream consumer read found phase waits known struck => ?_⟩
  · obtain ⟨rfl, found, unfinished', doing⟩ := doing struck
    cases unfinished.unique unfinished'
    cases doing.isCompletion_eq_false.symm.trans works
  · obtain ⟨rfl, found, unfinished', doing⟩ := doing struck
    obtain ⟨run, -, vigil, -⟩ := fits.of_debouncing phase
    obtain ⟨request, same⟩ := Doing.of_watch (vigil.does.2 found unfinished') doing
    exact watch request same task activity _ unfinished others phase
  · obtain ⟨rfl, found, unfinished', doing⟩ := doing struck
    obtain ⟨-, -, -, works, -⟩ := fits.of_calling phase
    exact Or.inl (answer (Doing.of_answer (works.2 found unfinished') doing))
  · obtain ⟨rfl, found', unfinished', doing⟩ := doing struck
    obtain ⟨-, -, read', -, -, waits', works, -⟩ := fits.of_reading phase
    cases waits.symm.trans waits'
    exact Or.inl (pull _ found (Doing.of_pull (works.2 found' unfinished') doing) known)

theorem Coherent.cancelCall (coherent : engine.Coherent touched running) (call : Nat) :
    (engine.cancelCall call).Coherent touched running := by
  unfold Engine.cancelCall
  split
  · exact coherent
  · split
    · next active =>
      rw [Bool.and_eq_true, decide_eq_true_eq] at active
      have marked := coherent.markAborted call
      have works : (engine.withClient (·.markAborted call)).Does .answer call :=
        coherent.calls call active.1
      refine marked.cancelErrand works nofun (fun _ => ?_) nofun
      show call ∈ if call ∈ engine.client.abortedCalls then _ else _
      split
      · assumption
      · simp
    · exact coherent

theorem Coherent.abortStream (coherent : engine.Coherent touched running) (id : Nat) :
    (engine.abortStream id).Coherent touched running := by
  unfold Engine.abortStream
  cases found : engine.streams[id]? with
  | none => exact coherent
  | some stream =>
    dsimp only
    split
    · exact coherent
    · have sealed := coherent.abortFinish id
      unfold cancelRead
      split
      · exact sealed
      · next read pending =>
        rw [finishStream_withLoop]
        have does := (coherent.streams id stream found).pending read pending
        have frame := finishStream_frame (engine.modifyStream id fun s => { s with aborted := true }) id
        refine sealed.cancelErrand (does.congr frame.1 frame.2) nofun nofun fun other last same known => ?_
        cases same
        obtain ⟨closed, known', -, aborted, -⟩ := stream_finishStream _ id
          (stream_modifyStream engine id (fun s => { s with aborted := true }) found)
        cases known.symm.trans known'
        exact aborted

theorem Coherent.stopCall (coherent : engine.Coherent touched running) (call : Nat) :
    (engine.stopCall call).Coherent touched running :=
  (coherent.alike (alike_emit engine _)).cancelCall call

theorem Coherent.stopStream (coherent : engine.Coherent touched running) (stream : Nat) :
    (engine.stopStream stream).Coherent touched running :=
  (coherent.alike (alike_emit engine _)).abortStream stream

theorem Coherent.abortClient (coherent : engine.Coherent touched running) :
    engine.abortClient.Coherent touched running := by
  have calls (list : List Nat) {engine : Engine} (coherent : engine.Coherent touched running) :
      (list.foldl Engine.cancelCall engine).Coherent touched running := by
    induction list generalizing engine with
    | nil => exact coherent
    | cons call rest ih => exact ih (coherent.cancelCall call)
  have streams (list : List Nat) {engine : Engine} (coherent : engine.Coherent touched running) :
      (list.foldl Engine.abortStream engine).Coherent touched running := by
    induction list generalizing engine with
    | nil => exact coherent
    | cons stream rest ih => exact ih (coherent.abortStream stream)
  exact streams _ (calls _ coherent)

end InlineCompletion.Engine
