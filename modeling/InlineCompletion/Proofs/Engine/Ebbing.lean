import InlineCompletion.Proofs.Engine.Inversion

/-!
What is left of the streams. Only a read takes from a source or waits inside it. Whatever else a task
does, it begins no read and ends none, the sources that there are at most run dry, and the client
stays as it is.
-/

namespace InlineCompletion

open Loop (Cancelled)

/-- What a client goes by when it answers. -/
def Client.manner (client : Client) : List Reply × Option Failure × Bool × Bool :=
  (client.replies, client.failure, client.heedless, client.gateOpen)

theorem Client.pull_suffix (client : Client) (actions : List SourceAction) :
    (client.pull actions).2 <:+ actions := by
  induction actions with
  | nil => exact List.suffix_refl _
  | cons action rest ih =>
    have later : (client.pull rest).2 <:+ action :: rest := ih.trans (List.suffix_cons ..)
    cases action with
    | passGate =>
      unfold pull
      split
      · exact later
      · exact List.suffix_cons ..
    | checkFailure =>
      unfold pull
      split
      · exact List.nil_suffix
      · exact later
    | piece t => exact List.suffix_cons ..
    | fail failure => exact List.nil_suffix

/-- A source that nobody reads is as it was, or it was closed. -/
structure Source.Ebbs (before after : Source) : Prop where
  busy : after.busy = before.busy
  rest : after.opening = before.opening ∧ after.actions = before.actions ∨
    after.opening = none ∧ after.actions = []
  farewell : after.farewell <:+ before.farewell

namespace Source.Ebbs

variable {before after last : Source}

theorem refl (source : Source) : Ebbs source source :=
  ⟨rfl, Or.inl ⟨rfl, rfl⟩, List.suffix_refl _⟩

theorem trans (first : Ebbs before after) (second : Ebbs after last) : Ebbs before last where
  busy := second.busy.trans first.busy
  rest := by
    rcases second.rest with ⟨opening, actions⟩ | closed
    · rw [opening, actions]
      exact first.rest
    · exact Or.inr closed
  farewell := second.farewell.trans first.farewell

end Source.Ebbs

namespace Phase

/-- The stream that a completion reads. -/
def reads? : Phase → Option Nat
  | .reading stream (.completion ..) => some stream
  | _ => none

/-- The stream from whose source a task reads a piece. -/
def pulls? : Phase → Option Nat
  | .start (.pull stream) | .pulling stream => some stream
  | _ => none

end Phase

/-- No task is new that reads a piece. -/
def Unread (old new : Loop Phase) : Prop :=
  ∀ task activity, new.activity? task = some activity →
    (∃ found, old.activity? task = some found ∧ activity.phase = found.phase) ∨
      activity.phase.pulls? = none

namespace Unread

variable {old new last : Loop Phase}

theorem of_same (same : ∀ task, new.activity? task = old.activity? task) : Unread old new :=
  fun task activity known => Or.inl ⟨activity, (same task).symm.trans known, rfl⟩

theorem refl (loop : Loop Phase) : Unread loop loop :=
  of_same fun _ => rfl

theorem trans (first : Unread old new) (second : Unread new last) : Unread old last := by
  intro task activity known
  rcases second task activity known with ⟨found, known', phase⟩ | other
  · rw [phase]
    exact first task found known'
  · exact Or.inr other

theorem settleAll (loop : Loop Phase) (waiters : List Nat) (o : Outcome) :
    Unread loop (waiters.foldl (fun l waiter => l.settle waiter o) loop) := by
  induction waiters generalizing loop with
  | nil => exact refl loop
  | cons waiter rest ih =>
    exact (of_same fun task => Loop.activity?_settle loop waiter task o).trans (ih _)

theorem cancel (loop : Loop Phase) (root : Nat) : Unread loop (loop.cancel root) := by
  have step : Cancelled loop root (loop.cancel root) := Loop.cancelled_cancel root
  generalize loop.cancel root = new at step
  cases step with
  | nothing => exact refl loop
  | waiter id => exact of_same fun task => Loop.activity?_settle loop id task .cancelled
  | task id =>
    intro task activity known
    rw [Loop.activity?_requestCancel] at known
    split at known
    · next here =>
      subst here
      obtain ⟨found, known', rfl⟩ := Option.map_eq_some_iff.mp known
      exact Or.inl ⟨found, known', rfl⟩
    · exact Or.inl ⟨activity, known, rfl⟩

theorem spawn (loop : Loop Phase) {phase : Phase} (other : phase.pulls? = none) :
    Unread loop (loop.spawn phase).2 := by
  intro task activity known
  rw [Loop.activity?_spawn] at known
  split at known
  · cases known
    exact Or.inr other
  · exact Or.inl ⟨activity, known, rfl⟩

end Unread

namespace Engine

variable {engine old new last : Engine} {env : Environment} {run : Run} {reads : Option Nat}

structure Ebb (old new : Engine) : Prop where
  manner : new.client.manner = old.client.manner
  streams : ∀ (id : Nat) (stream : Stream), old.streams[id]? = some stream →
    ∃ found, new.streams[id]? = some found ∧ found.pending = stream.pending ∧
      Source.Ebbs stream.source found.source
  /-- A new stream has not been read. -/
  fresh : ∀ (id : Nat) (stream : Stream), new.streams[id]? = some stream →
    old.streams.length ≤ id → stream.pending = none ∧ stream.source.busy = false ∧
      stream.source.actions = [] ∧ stream.source.farewell = []
  unread : Unread old.loop new.loop

namespace Ebb

theorem of_same (manner : new.client.manner = old.client.manner) (streams : new.streams = old.streams)
    (unread : Unread old.loop new.loop) : Ebb old new where
  manner := manner
  streams := fun id stream known => ⟨stream, streams ▸ known, rfl, .refl _⟩
  fresh := fun id stream known outside => by
    rw [streams, List.getElem?_eq_none outside] at known
    cases known
  unread := unread

theorem refl (engine : Engine) : Ebb engine engine :=
  .of_same rfl rfl (.refl _)

/-- Only streams, the client and the loop matter. -/
theorem of_eq (client : new.client = old.client) (streams : new.streams = old.streams)
    (loop : new.loop = old.loop) : Ebb old new :=
  .of_same (by rw [client]) streams (by rw [loop]; exact .refl _)

theorem trans (first : Ebb old new) (second : Ebb new last) : Ebb old last where
  manner := second.manner.trans first.manner
  streams := by
    intro id stream known
    obtain ⟨found, known', pending, ebbs⟩ := first.streams id stream known
    obtain ⟨found', known'', pending', ebbs'⟩ := second.streams id found known'
    exact ⟨found', known'', pending'.trans pending, ebbs.trans ebbs'⟩
  fresh := by
    intro id stream known outside
    by_cases middle : id < new.streams.length
    · obtain ⟨pending, idle, actions, farewell⟩ :=
        first.fresh id _ (List.getElem?_eq_getElem middle) outside
      obtain ⟨found, known', pending', ebbs⟩ := second.streams id _ (List.getElem?_eq_getElem middle)
      cases known.symm.trans known'
      refine ⟨pending'.trans pending, ebbs.busy.trans idle, ?_, ?_⟩
      · rcases ebbs.rest with ⟨-, same⟩ | ⟨-, none⟩
        · exact same.trans actions
        · exact none
      · exact List.suffix_nil.mp (farewell ▸ ebbs.farewell)
    · exact second.fresh id stream known (Nat.le_of_not_lt middle)
  unread := first.unread.trans second.unread

theorem length (ebb : Ebb old new) : old.streams.length ≤ new.streams.length := by
  refine Nat.le_of_not_lt fun fewer => ?_
  obtain ⟨found, known, -⟩ := ebb.streams new.streams.length _ (List.getElem?_eq_getElem fewer)
  exact Nat.lt_irrefl _ (List.getElem?_eq_some_iff.mp known).1

end Ebb

/-! The parts of the engine. -/

theorem ebb_withLoop (engine : Engine) (f : Loop Phase → Loop Phase)
    (unread : Unread engine.loop (f engine.loop)) : Ebb engine (engine.withLoop f) :=
  .of_same rfl rfl unread

theorem ebb_withClient (engine : Engine) (f : Client → Client)
    (same : (f engine.client).manner = engine.client.manner) : Ebb engine (engine.withClient f) :=
  .of_same same rfl (.refl _)

theorem ebb_modifyStream (engine : Engine) (id : Nat) {f : Stream → Stream}
    (ebbs : ∀ stream, engine.streams[id]? = some stream →
      (f stream).pending = stream.pending ∧ Source.Ebbs stream.source (f stream).source) :
    Ebb engine (engine.modifyStream id f) where
  manner := rfl
  streams := by
    intro other stream known
    by_cases here : other = id
    · subst here
      exact ⟨_, stream_modifyStream engine other f known, ebbs stream known⟩
    · refine ⟨stream, ?_, rfl, .refl _⟩
      show (engine.streams.modify id f)[other]? = _
      rw [getElem?_modify, if_neg here]
      exact known
  fresh := by
    intro other stream known outside
    have inside := (List.getElem?_eq_some_iff.mp known).1
    have length : (engine.modifyStream id f).streams.length = engine.streams.length :=
      List.length_modify ..
    omega
  unread := .refl _

/-- Whether it is stopped or closed, and how often that was told, is no matter of its source. -/
theorem ebb_markStream (engine : Engine) (id : Nat) {f : Stream → Stream}
    (pending : ∀ stream, (f stream).pending = stream.pending)
    (source : ∀ stream, (f stream).source = stream.source) :
    Ebb engine (engine.modifyStream id f) :=
  ebb_modifyStream engine id fun stream _ => ⟨pending stream, source stream ▸ .refl _⟩

theorem ebb_modifySource (engine : Engine) (id : Nat) {f : Source → Source}
    (ebbs : ∀ stream, engine.streams[id]? = some stream →
      Source.Ebbs stream.source (f stream.source)) : Ebb engine (engine.modifySource id f) :=
  ebb_modifyStream engine id fun stream known => ⟨rfl, ebbs stream known⟩

theorem ebb_addFuture (engine : Engine) : Ebb engine engine.addFuture.2 :=
  .of_same rfl rfl (.of_same fun task => Loop.activity?_addFuture engine.loop task)

theorem ebb_spawn (engine : Engine) {job : Job} (other : (Phase.start job).pulls? = none) :
    Ebb engine (engine.spawn job).2 :=
  .of_same rfl rfl (.spawn engine.loop other)

theorem ebb_awaitGate (engine : Engine) (phase : Phase) : Ebb engine (engine.awaitGate phase).1 :=
  (ebb_addFuture engine).trans (.of_same rfl rfl (.refl _))

theorem ebb_cancel (engine : Engine) (root : Nat) : Ebb engine (engine.withLoop (·.cancel root)) :=
  ebb_withLoop engine _ (.cancel engine.loop root)

/-! Stopping. -/

theorem ebb_cancelCall (engine : Engine) (call : Nat) : Ebb engine (engine.cancelCall call) := by
  unfold cancelCall
  split
  · exact .refl engine
  · split
    · have marked : Ebb engine (engine.withClient (·.markAborted call)) := ebb_withClient engine _ rfl
      exact marked.trans (ebb_cancel _ call)
    · exact .refl engine

theorem ebb_finishStream (engine : Engine) (id : Nat) : Ebb engine (engine.finishStream id) := by
  unfold finishStream
  split
  · exact .refl engine
  · split
    · exact .refl engine
    · split
      · have sealed : Ebb engine (engine.modifyStream id fun s =>
            { s with closed := true, reports := s.reports + 1 }) :=
          ebb_markStream engine id (fun _ => rfl) fun _ => rfl
        exact sealed.trans (ebb_withClient _ _ rfl)
      · exact ebb_markStream engine id (fun _ => rfl) fun _ => rfl

theorem ebb_abortStream (engine : Engine) (id : Nat) : Ebb engine (engine.abortStream id) := by
  unfold abortStream
  split
  · exact .refl engine
  · next stream _ =>
    split
    · exact .refl engine
    · have marked : Ebb engine (engine.modifyStream id fun s => { s with aborted := true }) :=
        ebb_markStream engine id (fun _ => rfl) fun _ => rfl
      refine (marked.trans ?_).trans (ebb_finishStream ..)
      cases stream.pending with
      | none => exact .refl _
      | some read => exact ebb_cancel _ read

theorem ebb_stopCall (engine : Engine) (call : Nat) : Ebb engine (engine.stopCall call) := by
  have told : Ebb engine (engine.emit (.stoppedCall call)) := .of_eq rfl rfl rfl
  exact told.trans (ebb_cancelCall _ call)

theorem ebb_stopStream (engine : Engine) (stream : Nat) : Ebb engine (engine.stopStream stream) := by
  have told : Ebb engine (engine.emit (.stoppedStream stream)) := .of_eq rfl rfl rfl
  exact told.trans (ebb_abortStream _ stream)

theorem ebb_stopWork (engine : Engine) (work : Request) : Ebb engine (engine.stopWork work) := by
  unfold stopWork
  split
  · exact ebb_stopStream ..
  · exact ebb_stopCall ..
  · exact .refl engine

theorem ebb_cancelRequest (engine : Engine) (id : Nat) : Ebb engine (engine.cancelRequest id) := by
  unfold cancelRequest
  split
  · exact .refl engine
  · next request _ =>
    split
    · exact .refl engine
    · have marked : Ebb engine (engine.modifyRequest id fun r =>
          { r with cancelled := true, waiters := [] }) := .of_eq rfl rfl rfl
      refine (marked.trans (ebb_withLoop _ _ ?_)).trans (ebb_stopWork ..)
      exact .settleAll _ request.waiters (.value (.truth true))

theorem ebb_cancelCurrent (engine : Engine) (orchestrator : Nat) :
    Ebb engine (engine.cancelCurrent orchestrator) := by
  have counted : Ebb engine (engine.modifyOrchestrator orchestrator fun o =>
      { o with generation := o.generation + 1 }) := .of_eq rfl rfl rfl
  unfold cancelCurrent
  dsimp only
  split
  · exact counted.trans (.of_eq rfl rfl rfl)
  · exact (counted.trans (ebb_cancelRequest ..)).trans (.of_eq rfl rfl rfl)

theorem ebb_beginRequest (engine : Engine) (orchestrator : Nat) :
    Ebb engine (engine.beginRequest orchestrator).2 :=
  (ebb_cancelCurrent engine orchestrator).trans (.of_eq rfl rfl rfl)

theorem ebb_abortClient (engine : Engine) : Ebb engine engine.abortClient := by
  have calls (ids : List Nat) (engine : Engine) : Ebb engine (ids.foldl cancelCall engine) := by
    induction ids generalizing engine with
    | nil => exact .refl engine
    | cons id rest ih => exact (ebb_cancelCall engine id).trans (ih _)
  have streams (ids : List Nat) (engine : Engine) : Ebb engine (ids.foldl abortStream engine) := by
    induction ids generalizing engine with
    | nil => exact .refl engine
    | cons id rest ih => exact (ebb_abortStream engine id).trans (ih _)
  exact (calls ..).trans (streams ..)

/-! Calls and streams. -/

theorem ebb_attachCall (engine : Engine) (request call : Nat) :
    Ebb engine (engine.attachCall request call) := by
  have attached : Ebb engine (engine.modifyRequest request fun r => { r with call := some call }) :=
    .of_eq rfl rfl rfl
  unfold attachCall
  dsimp only
  split
  · exact attached.trans (ebb_stopCall ..)
  · exact attached

theorem ebb_attachStream (engine : Engine) (request stream : Nat) :
    Ebb engine (engine.attachStream request stream) := by
  have attached : Ebb engine (engine.modifyRequest request fun r => { r with stream := some stream }) :=
    .of_eq rfl rfl rfl
  unfold attachStream
  dsimp only
  split
  · exact attached.trans (ebb_stopStream ..)
  · exact attached

theorem ebb_beginCall (engine : Engine) (call : Call) : Ebb engine (engine.beginCall call).2 := by
  have spawned : Ebb engine (engine.spawn (.answer call)).2 := ebb_spawn engine rfl
  exact spawned.trans (.of_same rfl rfl (.refl _))

theorem ebb_endCall (engine : Engine) (call : Nat) (outcome : Outcome) :
    Ebb engine (engine.endCall call outcome).2 :=
  ebb_withClient engine (·.dropCall call) rfl

theorem ebb_openStream (engine : Engine) (call : Call) : Ebb engine (engine.openStream call).2 := by
  have added : Ebb engine
      { engine with streams := engine.streams ++ [{ source := { opening := some call } }] } :=
    { manner := rfl
      streams := fun id stream known => by
        refine ⟨stream, ?_, rfl, .refl _⟩
        show (engine.streams ++ _)[id]? = _
        rw [List.getElem?_append_left (List.getElem?_eq_some_iff.mp known).1]
        exact known
      fresh := fun id stream known outside => by
        have known : (engine.streams ++ [{ source := { opening := some call } }])[id]? = some stream :=
          known
        rw [List.getElem?_append_right outside] at known
        cases List.mem_singleton.mp (List.mem_of_getElem? known)
        exact ⟨rfl, rfl, rfl, rfl⟩
      unread := .refl _ }
  exact added.trans (.of_same rfl rfl (.refl _))

theorem ebb_closeStream (engine : Engine) (id : Nat) : Ebb engine (engine.closeStream id).2 := by
  have finished := ebb_finishStream engine id
  unfold closeStream
  dsimp only
  split
  · exact finished
  · split
    · exact finished
    · split
      · exact finished
      · dsimp only
        refine finished.trans (ebb_modifySource _ id fun stream _ => ?_)
        exact ⟨rfl, Or.inr ⟨rfl, rfl⟩, List.suffix_refl _⟩

theorem ebb_bidFarewell (engine : Engine) (id : Nat) : Ebb engine (engine.bidFarewell id).2 := by
  unfold bidFarewell
  split
  · exact .refl engine
  · next stream known =>
    have left := engine.client.pull_suffix stream.source.farewell
    have parts (rest : List SourceAction) (suffix : rest <:+ stream.source.farewell) :
        Ebb engine (engine.modifySource id fun source => { source with farewell := rest }) := by
      refine ebb_modifySource engine id fun other known' => ?_
      cases known.symm.trans known'
      exact ⟨rfl, Or.inl ⟨rfl, rfl⟩, suffix⟩
    split
    · exact .refl engine
    · split
      all_goals
        next same =>
        rw [same] at left
        exact parts _ left

theorem ebb_resumeFarewell (engine : Engine) (id : Nat) (outcome : Outcome) :
    Ebb engine (engine.resumeFarewell id outcome).2 := by
  unfold resumeFarewell
  split
  · exact ebb_bidFarewell engine id
  · split
    · exact ebb_bidFarewell engine id
    · dsimp only
      exact ebb_modifySource engine id fun _ _ => ⟨rfl, Or.inl ⟨rfl, rfl⟩, List.nil_suffix⟩

/-! A completion that does not read. -/

/-- The step begins no read: what it leaves is an ebb, and it does not wait for a piece. -/
structure Ebbed (old : Engine) (step : Step) : Prop where
  ebb : Ebb old step.1
  next : ∀ target phase, step.2 = .wait target phase → phase.reads? = none ∧ phase.pulls? = none

theorem Ebbed.from_ebb {step : Step} (ebb : Ebb old new) (ebbed : Ebbed new step) : Ebbed old step :=
  ⟨ebb.trans ebbed.ebb, ebbed.next⟩

theorem Ebbed.of_done (ebb : Ebb old new) (outcome : Outcome) : Ebbed old (new, .done outcome) :=
  ⟨ebb, fun _ _ same => by cases same⟩

theorem Ebbed.of_wait (ebb : Ebb old new) (target : Nat) {phase : Phase}
    (aloof : phase.reads? = none ∧ phase.pulls? = none) : Ebbed old (new, .wait target phase) :=
  ⟨ebb, fun _ _ same => by cases same; exact aloof⟩

theorem ebbed_endRun (engine : Engine) (run : Run) (outcome : Outcome) :
    Ebbed engine (engine.endRun run outcome) := by
  unfold endRun
  refine .of_done ?_ outcome
  split
  · exact .of_eq rfl rfl rfl
  · exact .refl engine

theorem ebb_store (engine : Engine) (env : Environment) (run : Run) (completion : Text) :
    Ebb engine (engine.store env run completion) := by
  unfold store
  split
  · exact .refl engine
  · exact .of_eq rfl rfl rfl

theorem ebbed_afterCall (env : Environment) (run : Run) (engine : Engine) (outcome : Outcome) :
    Ebbed engine (engine.afterCall env run outcome) := by
  cases outcome with
  | cancelled => exact ebbed_endRun ..
  | failed failure =>
    unfold afterCall
    dsimp only
    split
    · exact ebbed_endRun ..
    · split
      · exact ebbed_endRun ..
      · have told : Ebb engine (engine.notify (.failed failure)) := .of_eq rfl rfl rfl
        exact .from_ebb told (ebbed_endRun ..)
  | value v =>
    unfold afterCall
    dsimp only
    split
    · unfold acceptReply
      split
      · exact ebbed_endRun ..
      · dsimp only
        split
        · exact ebbed_endRun ..
        · exact .from_ebb (ebb_store ..) (ebbed_endRun ..)
    · exact ebbed_endRun ..

theorem ebbed_afterClosing (env : Environment) (run : Run) (engine : Engine)
    (reading closing : Outcome) :
    Ebbed engine (engine.afterClosing env (.completion run reading) closing) := by
  cases closing with
  | value v => exact ebbed_afterCall env run engine reading
  | failed failure => exact ebbed_afterCall env run engine (.failed failure)
  | cancelled => exact ebbed_afterCall env run engine .cancelled

theorem ebbed_deliverFarewell (env : Environment) (run : Run) (stream : Nat) (reading : Outcome)
    {answer : Option Outcome × Engine} (ebb : Ebb engine answer.2) :
    Ebbed engine (deliverFarewell env stream (.completion run reading) answer) := by
  obtain ⟨closing, new⟩ := answer
  cases closing with
  | some closing => exact .from_ebb ebb (ebbed_afterClosing env run new reading closing)
  | none =>
    have waits := ebb.trans (ebb_awaitGate new (.closing stream (.completion run reading)))
    exact .of_wait waits _ ⟨rfl, rfl⟩

theorem ebbed_closeFor (env : Environment) (run : Run) (engine : Engine) (stream : Nat)
    (reading : Outcome) : Ebbed engine (engine.closeFor env stream (.completion run reading)) := by
  have closed := ebb_closeStream engine stream
  unfold closeFor
  split
  · next new same =>
    rw [same] at closed
    exact .from_ebb closed (ebbed_deliverFarewell env run stream reading (ebb_bidFarewell ..))
  · next failure new same =>
    rw [same] at closed
    exact .from_ebb closed (ebbed_afterClosing env run new reading _)

/-! A completion that may read. -/

/-- What a completion leaves of the streams in one turn: at last it may begin to read one that is
neither aborted nor closed. It has read that one before, or the stream is new. -/
inductive Left (reads : Option Nat) (old : Engine) : Step → Prop where
  | rests (step : Step) (ebbed : Ebbed old step) : Left reads old step
  | reads (middle : Engine) (stream : Nat) (run : Run) (pieces : List Text) (found : Stream)
    (ebb : Ebb old middle) (known : middle.streams[stream]? = some found)
    (going : found.aborted = false ∧ found.closed = false)
    (mine : old.streams.length ≤ stream ∨ reads = some stream) :
    Left reads old ((middle.spawn (.pull stream)).2.modifyStream stream fun s =>
        { s with pending := some middle.loop.futures.length },
      .wait middle.loop.futures.length (.reading stream (.completion run pieces)))

theorem Left.from_ebb {step : Step} (ebb : Ebb old new) (left : Left reads new step) :
    Left reads old step := by
  cases left with
  | rests step ebbed => exact .rests step (.from_ebb ebb ebbed)
  | reads middle stream run pieces found ebb' known going mine =>
    exact .reads middle stream run pieces found (ebb.trans ebb') known going
      (mine.imp_left (Nat.le_trans ebb.length))

theorem Left.next {step : Step} (left : Left reads old step) {target : Nat} {phase : Phase}
    (waits : step.2 = .wait target phase) : phase.pulls? = none := by
  cases left with
  | rests step ebbed => exact (ebbed.next target phase waits).2
  | reads =>
    cases waits
    rfl

theorem left_readFor (env : Environment) (run : Run) (ebb : Ebb old engine) {stream : Nat}
    (mine : old.streams.length ≤ stream ∨ reads = some stream) (pieces : List Text) :
    Left reads old (engine.readFor env run stream pieces) := by
  have closes (failure : Failure) : Left reads old
      (engine.afterStream env run stream (collected pieces (.failed failure))) :=
    .rests _ (.from_ebb ebb (ebbed_closeFor ..))
  unfold readFor beginRead
  cases known : engine.streams[stream]? with
  | none => exact closes _
  | some found =>
    dsimp only
    cases aborted : found.aborted with
    | true => exact closes _
    | false =>
      cases closed : found.closed with
      | true => exact closes _
      | false => exact .reads engine stream run pieces found ebb known ⟨aborted, closed⟩ mine

theorem left_generate (env : Environment) (run : Run) (engine : Engine) (call : Call) :
    Left reads engine (engine.generate env run call) := by
  have asked : Ebb engine (engine.emit (.asked run.request engine.loop.now call)) :=
    .of_eq rfl rfl rfl
  unfold generate
  dsimp only
  split
  · exact left_readFor env run ((asked.trans (ebb_openStream ..)).trans (ebb_attachStream ..))
      (Or.inl (Nat.le_refl _)) []
  · refine .rests _ (.of_wait ?_ _ ⟨rfl, rfl⟩)
    exact (asked.trans (ebb_beginCall _ call)).trans (ebb_attachCall ..)

theorem left_afterDebounce (env : Environment) (run : Run) (engine : Engine) (outcome : Outcome) :
    Left reads engine (engine.afterDebounce env run outcome) := by
  unfold afterDebounce
  split
  · split
    · have told : Ebb engine (engine.notify .noModel) := .of_eq rfl rfl rfl
      exact .from_ebb told (.rests _ (ebbed_endRun ..))
    · have entered : Ebb engine (engine.setStage run.orchestrator .generating) := .of_eq rfl rfl rfl
      exact .from_ebb entered (left_generate ..)
  · exact .rests _ (ebbed_endRun ..)
  · exact .rests _ (ebbed_endRun ..)

theorem left_deliver (env : Environment) (run : Run) {answer : Engine × Debounced}
    (ebb : Ebb old answer.1) (next : ∀ target phase, answer.2 = .waiting target phase →
      phase.reads? = none ∧ phase.pulls? = none) :
    Left reads old (deliver env (some run) answer) := by
  obtain ⟨new, answer⟩ := answer
  cases answer with
  | waiting target phase => exact .rests _ (.of_wait ebb target (next target phase rfl))
  | ended outcome => exact .from_ebb ebb (left_afterDebounce env run new outcome)

theorem ebb_startDebounce (engine : Engine) (request delay : Nat) (owner : Option Run) :
    Ebb engine (engine.startDebounce request delay owner).1 := by
  unfold startDebounce
  split
  · exact .refl engine
  · split
    · exact .refl engine
    · refine .of_same rfl rfl ?_
      have added : Unread engine.loop (engine.loop.addFuture.2.setTimer delay engine.loop.futures.length) :=
        .of_same fun task => Loop.activity?_addFuture engine.loop task
      have spawned := Unread.spawn (engine.loop.addFuture.2.setTimer delay engine.loop.futures.length)
        (show (Phase.start (.watch request)).pulls? = none from rfl)
      exact (added.trans spawned).trans (.of_same fun task => Loop.activity?_watch ..)

theorem ebb_unwindWatch (engine : Engine) (watch : Nat) (timedOut : Bool) (owner : Option Run) :
    Ebb engine (engine.unwindWatch watch timedOut owner).1 := by
  refine .of_same rfl rfl ?_
  have added : Unread engine.loop (engine.loop.addFuture.2.watch watch
      (.release engine.loop.futures.length)) := .of_same fun task =>
    (Loop.activity?_watch ..).trans (Loop.activity?_addFuture engine.loop task)
  exact added.trans (.cancel _ watch)

theorem left_awaitDebounce (env : Environment) (run : Run) (engine : Engine) (settings : Settings) :
    Left reads engine (engine.awaitDebounce env run settings) := by
  have entered : Ebb engine (engine.setStage run.orchestrator .debouncing) := .of_eq rfl rfl rfl
  have started := ebb_startDebounce (engine.setStage run.orchestrator .debouncing) run.request
    (settings.debounceMs.toNat * nanosecondsPerMillisecond) (some run)
  unfold awaitDebounce
  dsimp only
  split
  · exact .from_ebb entered (.rests _ (ebbed_endRun ..))
  · refine left_deliver env run (entered.trans started) fun target phase waits => ?_
    unfold startDebounce at waits
    split at waits
    · cases waits
    · split at waits
      · cases waits
      · cases waits
        exact ⟨rfl, rfl⟩

theorem left_startCompletion (env : Environment) (engine : Engine) (orchestrator : Nat)
    (document : Document) (position : Position) :
    Left reads engine (engine.startCompletion env orchestrator document position) := by
  have begun := ebb_beginRequest engine orchestrator
  have looked (engine : Engine) (run : Run) (cache : Cache Float) :
      Ebb engine (engine.lookUp env run cache).2 := by
    unfold lookUp
    split <;> exact .of_eq rfl rfl rfl
  unfold startCompletion
  generalize engine.beginRequest orchestrator = started at begun
  obtain ⟨request, new⟩ := started
  refine .from_ebb begun ?_
  dsimp only
  split
  · exact .rests _ (.of_done (.refl new) _)
  · next o _ =>
    generalize Run.mk orchestrator request document position
      (classify document position o.settings.scanWindow) _ = run
    have looked := looked new run o.cache
    split
    · next entry last same =>
      rw [same] at looked
      have entered : Ebb last (last.setStage orchestrator .cacheHit) := .of_eq rfl rfl rfl
      exact .from_ebb (looked.trans entered) (.rests _ (ebbed_endRun ..))
    · next last same =>
      rw [same] at looked
      exact .from_ebb looked (left_awaitDebounce ..)

/-- A completion that goes on has what it waited for. -/
def freed (engine : Engine) (phase : Phase) : Engine :=
  match phase.reads? with
  | some stream => engine.modifyStream stream fun s => { s with pending := none }
  | none => engine

theorem loop_freed (engine : Engine) (phase : Phase) : (engine.freed phase).loop = engine.loop := by
  unfold freed
  split <;> rfl

theorem ebb_endRead (engine : Engine) (id : Nat) (outcome : Outcome) :
    Ebb (engine.modifyStream id fun s => { s with pending := none }) (engine.endRead id outcome).2 := by
  unfold endRead
  dsimp only
  split
  · split <;> exact .refl _
  · exact ebb_finishStream ..
  · exact ebb_finishStream ..
  · exact .refl _

theorem left_resumeReading (env : Environment) (run : Run) (engine : Engine) (stream : Nat)
    (pieces : List Text) (outcome : Outcome) :
    Left (some stream) (engine.modifyStream stream fun s => { s with pending := none })
      (engine.resumeReading env stream (.completion run pieces) outcome) := by
  have read := ebb_endRead engine stream outcome
  unfold resumeReading
  generalize engine.endRead stream outcome = ended at read
  obtain ⟨seen, new⟩ := ended
  cases seen with
  | cancelled | failed failure => exact .rests _ (.from_ebb read (ebbed_closeFor ..))
  | value v =>
    cases v with
    | text t => exact left_readFor env run read (Or.inr rfl) _
    | nothing | truth b | drained => exact .rests _ (.from_ebb read (ebbed_closeFor ..))

/-- From whichever phase a completion goes on, it leaves the streams so. -/
theorem left_resume (env : Environment) {phase : Phase} (works : phase.run? = some run)
    (outcome : Outcome) :
    Left phase.reads? (engine.freed phase) (engine.resume env phase outcome) := by
  unfold Phase.run? at works
  split at works
  · next watch owner =>
    cases works
    show Left none engine (deliver env (some run) (engine.resumeDebounce watch (some run) outcome))
    unfold resumeDebounce
    split
    · exact left_afterDebounce env run engine _
    · have waits := ebb_unwindWatch engine watch (outcome ≠ .cancelled) (some run)
      exact .rests _ (.of_wait waits _ ⟨rfl, rfl⟩)
  · next watch timedOut owner =>
    cases works
    show Left none engine (deliver env (some run) (engine.resumeUnwinding watch timedOut outcome))
    unfold resumeUnwinding
    split
    · exact left_afterDebounce env run engine .cancelled
    · exact left_afterDebounce env run engine (.value _)
  · next call owner =>
    cases works
    exact .rests _ (.from_ebb (ebb_endCall engine call outcome) (ebbed_afterCall ..))
  · next stream run' pieces =>
    cases works
    exact left_resumeReading env run engine stream pieces outcome
  · next stream run' reading =>
    cases works
    exact .rests _ (ebbed_deliverFarewell env run stream reading (ebb_resumeFarewell ..))
  · cases works

end Engine

end InlineCompletion
