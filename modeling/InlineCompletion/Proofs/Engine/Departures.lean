import InlineCompletion.Proofs.Engine.Inert
import InlineCompletion.Proofs.Engine.Propagation

/-!
How a completion ends whose caller cancelled it after its call had begun. It leaves its call or its
stream when it runs next, and ends as cancelled unless that was aborted before.
-/

namespace InlineCompletion

/-- Whether a source may fail there. -/
def SourceAction.mayFail : SourceAction → Bool
  | .checkFailure | .fail _ => true
  | _ => false

theorem Client.pull_ne_failed {client : Client} {actions : List SourceAction}
    (harmless : ∀ action ∈ actions, action.mayFail = false) (failure : Failure) :
    (client.pull actions).1 ≠ .ended (.failed failure) := by
  induction actions with
  | nil =>
    intro ended
    cases ended
  | cons action rest ih =>
    have later := ih fun other member => harmless other (List.mem_cons_of_mem _ member)
    cases action with
    | passGate =>
      unfold pull
      split
      · exact later
      · intro ended
        cases ended
    | piece t =>
      intro ended
      cases ended
    | checkFailure | fail =>
      have fails := harmless _ (List.mem_cons_self ..)
      cases fails

namespace Engine

variable {engine old new : Engine} {env : Environment} {run : Run} {touched : Nat → Prop}
  {task id : Nat} {activity : Activity Phase} {phase : Phase} {move : Move}

/-! Leaving a stream. -/

/-- The client minds being cancelled, and no source fails when it is closed. -/
structure Mannered (engine : Engine) : Prop where
  heeds : engine.client.heedless = false
  farewells : ∀ (id : Nat) (stream : Stream), engine.streams[id]? = some stream →
    ∀ action ∈ stream.source.farewell, action.mayFail = false

theorem Mannered.ebb (mannered : old.Mannered) (ebb : Ebb old new) : new.Mannered where
  heeds := by
    have same := congrArg (fun manner => manner.2.2.1) ebb.manner
    exact same.trans mannered.heeds
  farewells := by
    intro id stream known action member
    by_cases inside : id < old.streams.length
    · obtain ⟨found, known', -, ebbs⟩ := ebb.streams id _ (List.getElem?_eq_getElem inside)
      cases known.symm.trans known'
      exact mannered.farewells id _ (List.getElem?_eq_getElem inside) action
        (ebbs.farewell.subset member)
    · obtain ⟨-, -, -, empty⟩ := ebb.fresh id stream known (Nat.le_of_not_lt inside)
      rw [empty] at member
      cases member

theorem Mannered.congr (mannered : old.Mannered) (manner : new.client.manner = old.client.manner)
    (farewells : ∀ (id : Nat) (stream : Stream), new.streams[id]? = some stream →
      ∃ found, old.streams[id]? = some found ∧ stream.source.farewell = found.source.farewell) :
    new.Mannered where
  heeds := by
    have same := congrArg (fun manner => manner.2.2.1) manner
    exact same.trans mannered.heeds
  farewells := by
    intro id stream known action member
    obtain ⟨found, known', farewell⟩ := farewells id stream known
    exact mannered.farewells id found known' action (farewell ▸ member)

/-- Whatever changes of a stream but its source. -/
theorem Mannered.modifyStream (mannered : engine.Mannered) (id : Nat) {f : Stream → Stream}
    (source : ∀ stream, (f stream).source = stream.source) : (engine.modifyStream id f).Mannered := by
  refine mannered.congr rfl fun other stream known => ?_
  have known : (engine.streams.modify id f)[other]? = some stream := known
  rw [getElem?_modify] at known
  split at known
  · obtain ⟨found, known', rfl⟩ := Option.map_eq_some_iff.mp known
    exact ⟨found, known', by rw [source]⟩
  · exact ⟨stream, known, rfl⟩

theorem Mannered.left {reads : Option Nat} {step : Step} (mannered : old.Mannered)
    (left : Left reads old step) : step.1.Mannered := by
  cases left with
  | rests step ebbed => exact mannered.ebb ebbed.ebb
  | reads middle stream run pieces found ebb known going mine =>
    have there : middle.Mannered := mannered.ebb ebb
    have spawned : (middle.spawn (.pull stream)).2.Mannered := ⟨there.heeds, there.farewells⟩
    exact spawned.modifyStream stream fun _ => rfl

theorem Mannered.flow {step : Step} (mannered : old.Mannered) (flow : Flow old phase step) :
    step.1.Mannered := by
  cases flow with
  | leaves idle left =>
    refine Mannered.left ?_ left
    unfold freed
    split
    · exact mannered.modifyStream _ fun _ => rfl
    · exact mannered
  | draws id stream pulls known draws =>
    obtain ⟨source, drawn, farewell, -⟩ := draws.drawn
    refine mannered.congr drawn.manner fun other found known' => ?_
    by_cases here : other = id
    · subst here
      cases known'.symm.trans (drawn.known known)
      exact ⟨stream, known, farewell⟩
    · exact ⟨found, (drawn.others here).symm.trans known', rfl⟩

/-- Only a script takes the manners away. -/
theorem Mannered.turn (env : Environment) (coherent : engine.Coherent touched none)
    (manned : engine.Manned) (mannered : engine.Mannered) : (engine.apply env .turn).Mannered := by
  have turned : Turned env engine (engine.apply env .turn) := turned_turn env coherent
  generalize engine.apply env .turn = next at *
  cases turned with
  | idle => exact mannered
  | released waiter rest => exact ⟨mannered.heeds, mannered.farewells⟩
  | woken task rest activity awake going first known same =>
    subst same
    have ready : ({ engine with loop := engine.loop.wakeFirst rest task activity.phase } :
        Engine).Mannered := ⟨mannered.heeds, mannered.farewells⟩
    have flow := flow_resume env coherent manned known
      (show ({ engine with loop := engine.loop.wakeFirst rest task activity.phase } : Engine).streams =
        engine.streams from rfl) (engine.incoming activity)
    have after := ready.flow flow
    obtain ⟨streams, client⟩ := conclude_client task
      (({ engine with loop := engine.loop.wakeFirst rest task activity.phase } : Engine).resume env
        activity.phase (engine.incoming activity))
    exact ⟨client ▸ after.heeds, streams ▸ after.farewells⟩

theorem bidFarewell_mannered (mannered : engine.Mannered) (id : Nat) :
    (engine.bidFarewell id).1 = none ∨ (engine.bidFarewell id).1 = some (.value .nothing) := by
  unfold bidFarewell
  split
  · exact Or.inr rfl
  · next stream known =>
    split
    · exact Or.inr rfl
    · split
      · next failure farewell pulled =>
        have fine : (engine.client.pull stream.source.farewell).1 ≠ .ended (.failed failure) :=
          Client.pull_ne_failed (mannered.farewells id stream known) failure
        rw [pulled] at fine
        exact absurd rfl fine
      · exact Or.inr rfl
      · exact Or.inl rfl

theorem closeStream_idle (idle : ∀ stream, engine.streams[id]? = some stream →
    stream.source.busy = false) : (engine.closeStream id).1 = none := by
  unfold closeStream
  dsimp only
  split
  · rfl
  · next stream known =>
    split
    · rfl
    · simp [idle stream known]

/-- What the reading of a stream comes to that is cancelled, by whether the stream was aborted. -/
def cancelledReading (aborted : Bool) : Outcome :=
  if aborted then .failed streamAborted else .cancelled

/-- What a completion comes to that is cancelled, by whether its call was aborted. -/
def cancelledResult (aborted : Bool) : Outcome :=
  if aborted then .value .nothing else .cancelled

/-- A completion leaves its stream, at once or when its source has been closed. -/
def Parts (stream : Nat) (run : Run) (aborted : Bool) (verdict : Verdict) : Prop :=
  verdict = .done (cancelledResult aborted) ∨
    ∃ target, verdict = .wait target (.closing stream (.completion run (cancelledReading aborted)))

theorem afterCall_cancelledReading (env : Environment) (run : Run) (aborted : Bool)
    (engine : Engine) : (engine.afterCall env run (cancelledReading aborted)).2 =
      .done (cancelledResult aborted) := by
  cases aborted <;> rfl

theorem parts_deliverFarewell {stream : Nat} {aborted : Bool} {answer : Option Outcome × Engine}
    (fine : answer.1 = none ∨ answer.1 = some (.value .nothing)) :
    Parts stream run aborted
      (deliverFarewell env stream (.completion run (cancelledReading aborted)) answer).2 := by
  obtain ⟨closing, engine⟩ := answer
  rcases fine with rfl | rfl
  · exact Or.inr ⟨_, rfl⟩
  · exact Or.inl (afterCall_cancelledReading env run aborted engine)

theorem parts_closeFor {stream : Nat} {aborted : Bool} (mannered : engine.Mannered)
    (idle : ∀ found, engine.streams[stream]? = some found → found.source.busy = false) :
    Parts stream run aborted
      (engine.closeFor env stream (.completion run (cancelledReading aborted))).2 := by
  have open' := closeStream_idle idle
  have after := mannered.ebb (ebb_closeStream engine stream)
  unfold closeFor
  generalize engine.closeStream stream = closed at *
  obtain ⟨failure, closed⟩ := closed
  subst open'
  exact parts_deliverFarewell (bidFarewell_mannered after stream)

/-- A reader that is cancelled leaves the stream. -/
theorem parts_resumeReading {stream : Nat} {pieces : List Text} {found : Stream}
    (mannered : engine.Mannered) (known : engine.streams[stream]? = some found)
    (idle : found.source.busy = false) : Parts stream run found.aborted
      (engine.resumeReading env stream (.completion run pieces) .cancelled).2 := by
  have free := mannered.modifyStream stream (f := fun s => { s with pending := none }) fun _ => rfl
  have idle' : ∀ other, (engine.modifyStream stream fun s =>
      { s with pending := none }).streams[stream]? = some other → other.source.busy = false := by
    intro other there
    cases there.symm.trans (stream_modifyStream engine stream (fun s =>
      { s with pending := none }) known)
    exact idle
  have parts : Parts stream run found.aborted
      (((engine.modifyStream stream fun s => { s with pending := none }).closeFor env stream
        (.completion run (cancelledReading found.aborted))).2) := parts_closeFor free idle'
  have other : Outcome.failed streamAborted ≠ .failed streamEnded := by decide
  unfold resumeReading endRead
  cases aborted : found.aborted with
  | true => simpa [known, aborted, afterStream, collected, other, cancelledReading] using parts
  | false => simpa [known, aborted, afterStream, collected, cancelledReading] using parts

/-! On the way out. -/

/-- A cancelled completion has left its call or its stream, and whether that was aborted. -/
inductive Departed (engine : Engine) (task : Nat) (aborted : Bool) : Prop where
  | closing (activity : Activity Phase) (stream : Nat) (run : Run)
    (known : engine.loop.Unfinished task activity)
    (phase : activity.phase = .closing stream (.completion run (cancelledReading aborted)))
    (alone : aborted = true → engine.Coherent (· ≠ task) none)
  | ended (ended : engine.loop.outcome? task = some (cancelledResult aborted))

/-- A cancelled completion is on its way out. -/
inductive Leaving (engine : Engine) (task : Nat) (aborted : Bool) : Prop where
  | told (activity : Activity Phase) (known : engine.loop.Unfinished task activity)
    (asked : activity.phase.asked = true) (doomed : engine.Doomed task) (unheard : aborted = false)
  | departed (departed : engine.Departed task aborted)

/-- The task goes on from a call or a stream that was aborted. -/
def Spoiled (engine : Engine) (task : Nat) : Prop :=
  engine.woken? = some task ∧
    ((∃ call run, engine.phaseOf task = some (.calling call (some run)) ∧
      call ∈ engine.client.abortedCalls) ∨
    ∃ stream run pieces found, engine.phaseOf task = some (.reading stream (.completion run pieces)) ∧
      engine.streams[stream]? = some found ∧ found.aborted = true)

/-- The completion waits at the closed gate of the client, until its stream has been closed. -/
def Parting (engine : Engine) (task : Nat) : Prop :=
  engine.client.gateOpen = false ∧ ∃ activity stream closer waiter,
    engine.loop.Unfinished task activity ∧ activity.phase = .closing stream closer ∧
      activity.waitingFor = some waiter ∧ engine.loop.isPending waiter = true ∧
      waiter ∈ engine.client.gateWaiters

theorem spoiled_iff (woken : engine.woken? = some task) (known : engine.loop.Unfinished task activity) :
    engine.Spoiled task ↔ (∃ call run, activity.phase = .calling call (some run) ∧
      call ∈ engine.client.abortedCalls) ∨
    ∃ stream run pieces found, activity.phase = .reading stream (.completion run pieces) ∧
      engine.streams[stream]? = some found ∧ found.aborted = true := by
  have there (phase : Phase) : engine.phaseOf task = some phase ↔ activity.phase = phase := by
    refine phaseOf_eq_some_iff.trans ⟨?_, fun same => ⟨activity, known, same⟩⟩
    intro given
    obtain ⟨found, unfinished, same⟩ := given
    cases known.unique unfinished
    exact same
  unfold Spoiled
  simp only [woken, there, true_and]

/-- Who touches a task is no matter to it where it stands as if nobody did. -/
theorem Coherent.exempt (coherent : engine.Coherent touched none)
    (fits : ∀ activity, engine.loop.Unfinished task activity → engine.Fits (· ≠ task) none task activity) :
    engine.Coherent (· ≠ task) none where
  sound := coherent.sound
  gate := coherent.gate
  open_gate := coherent.open_gate
  requests := coherent.requests
  streams := coherent.streams
  activeStreams := coherent.activeStreams
  calls := coherent.calls
  apart := coherent.apart
  fits := by
    intro other found unfinished others
    by_cases same : other = task
    · subst same
      exact fits found unfinished
    · exact (coherent.fits other found unfinished others).mono fun _ => same

/-- A stream that is closed for a completion is no matter of those who touch its task, until one does. -/
theorem Coherent.absolve (coherent : engine.Coherent touched none)
    (known : engine.loop.Unfinished task activity) {stream : Nat} {reading : Outcome}
    (phase : activity.phase = .closing stream (.completion run reading))
    (unstopped : reading ≠ .cancelled) (calm : ¬engine.loop.Roused activity) :
    engine.Coherent (· ≠ task) none := by
  refine coherent.exempt fun other unfinished => ?_
  cases known.unique unfinished
  obtain ⟨_, _, found, same, held, attached, there, -⟩ :=
    (coherent.fits task activity known nofun).of_closing phase
  cases same
  exact .closing stream run reading found phase held attached there
    (fun cancelled => absurd cancelled unstopped) fun roused => absurd roused calm

/-- What the task does in its turn tells how it leaves. -/
theorem departed_of_parts (env : Environment) (coherent : engine.Coherent touched none)
    (coherent' : (engine.apply env .turn).Coherent touched none)
    (woken : engine.woken? = some task) (known : engine.loop.Unfinished task activity)
    (stream : Nat) (run : Run) {aborted : Bool} (parts : ∀ rest, engine.loop.ready = .wake task :: rest →
      Parts stream run aborted
        (({ engine with loop := engine.loop.wakeFirst rest task activity.phase } : Engine).resume env
          activity.phase (engine.incoming activity)).2) :
    (engine.apply env .turn).Departed task aborted := by
  obtain ⟨rest, first, same⟩ := turn_of_woken env coherent woken known
  obtain ⟨runner, runs⟩ := runner_of_woken env coherent first known
  have calm : ∀ found, (engine.apply env .turn).loop.Unfinished task found →
      found.cancelRequested = false → ¬(engine.apply env .turn).loop.Roused found := by
    intro found unfinished unasked roused
    obtain ⟨-, target, -, waits, -, pending⟩ := wait_of_woken env coherent woken known unfinished
    rcases roused with requested | ⟨other, waits', ended⟩
    · cases unasked.symm.trans requested
    · cases waits.symm.trans waits'
      cases ended.symm.trans ((Loop.isPending_iff _ target).mp pending).2
  have parts := parts rest first
  rw [same] at coherent' calm ⊢
  generalize Engine.resume _ env activity.phase (engine.incoming activity) = step at *
  obtain ⟨last, verdict⟩ := step
  rcases parts with done | ⟨target, waits⟩
  · cases done
    exact .ended (outcome?_conclude runs _)
  · cases waits
    have parked := (Loop.unfinished_park runs
      (.closing stream (.completion run (cancelledReading aborted))) target task _).mpr
        (Or.inl ⟨rfl, rfl⟩)
    refine .closing _ stream run parked rfl fun spoilt => ?_
    subst spoilt
    exact coherent'.absolve parked rfl (by decide) (calm _ parked rfl)

/-- A call that is cancelled is left at once. -/
theorem parts_called (env : Environment) (engine : Engine) (call stream : Nat) (run : Run) :
    Parts stream run (decide (call ∈ engine.client.abortedCalls))
      ((engine.endCall call .cancelled).2.afterCall env run (engine.endCall call .cancelled).1).2 := by
  left
  by_cases member : call ∈ engine.client.abortedCalls
  · simp [endCall, member]
    rfl
  · simp [endCall, member]
    rfl

/-- A source that is cancelled while it is being closed gives up. -/
theorem parts_cancelled_farewell (env : Environment) (mannered : engine.Mannered) (stream : Nat)
    (run : Run) (reading : Outcome) : Parts stream run false
      (deliverFarewell env stream (.completion run reading)
        (engine.resumeFarewell stream .cancelled)).2 := by
  left
  simp only [resumeFarewell, mannered.heeds, Bool.false_eq_true, if_false]
  rfl

/-- The turn in which a completion hears of its cancellation. -/
theorem Doomed.turn (env : Environment) (coherent : engine.Coherent touched none)
    (coherent' : (engine.apply env .turn).Coherent touched none) (manned : engine.Manned)
    (mannered : engine.Mannered) (woken : engine.woken? = some task)
    (known : engine.loop.Unfinished task activity) (asked : activity.phase.asked = true)
    (doomed : engine.Doomed task) : ∃ aborted,
      (engine.apply env .turn).Departed task aborted ∧ (aborted = true ↔ engine.Spoiled task) := by
  have told (rest : List Handle) (first : engine.loop.ready = .wake task :: rest) :=
    doomed.incoming coherent first known
  have polite (loop : Loop Phase) : ({ engine with loop } : Engine).Mannered :=
    ⟨mannered.heeds, mannered.farewells⟩
  have spoiled := spoiled_iff woken known
  cases coherent.fits task activity known nofun with
  | calling call run phase =>
    refine ⟨decide (call ∈ engine.client.abortedCalls), ?_, ?_⟩
    · refine departed_of_parts env coherent coherent' woken known 0 run fun rest first => ?_
      rw [told rest first, phase]
      exact parts_called env _ call 0 run
    · simp [spoiled, phase]
  | reading stream read run pieces found phase waits does attached there =>
    refine ⟨found.aborted, ?_, ?_⟩
    · refine departed_of_parts env coherent coherent' woken known stream run fun rest first => ?_
      rw [told rest first, phase]
      have idle : found.source.busy = false := by
        refine Bool.eq_false_iff.mpr fun busy => ?_
        obtain ⟨other, reader, reads, pulls⟩ := manned.busy stream found there busy
        exact manned.free coherent first known (by rw [phase]; rfl) other reader reads (by rw [pulls]; rfl)
      exact parts_resumeReading (polite _) there idle
    · simp [spoiled, phase, there]
  | closing stream run reading found phase =>
    refine ⟨false, ?_, ?_⟩
    · refine departed_of_parts env coherent coherent' woken known stream run fun rest first => ?_
      rw [told rest first, phase]
      exact parts_cancelled_farewell env (polite _) stream run reading
    · simp [spoiled, phase]
  | start _ phase | watching phase | answering _ phase | pulling _ phase | debouncing _ _ phase
  | unwinding _ _ _ phase =>
    rw [phase] at asked
    cases asked

/-- A stream that is being closed for a cancelled completion, or the end of the completion. -/
theorem departed_of_closing (env : Environment) (coherent : engine.Coherent touched none)
    (coherent' : (engine.apply env .turn).Coherent touched none) (mannered : engine.Mannered)
    (woken : engine.woken? = some task) (known : engine.loop.Unfinished task activity)
    {stream : Nat} {aborted : Bool}
    (phase : activity.phase = .closing stream (.completion run (cancelledReading aborted)))
    (alone : aborted = true → engine.Coherent (· ≠ task) none) :
    (engine.apply env .turn).Departed task aborted := by
  have polite (loop : Loop Phase) : ({ engine with loop } : Engine).Mannered :=
    ⟨mannered.heeds, mannered.farewells⟩
  refine departed_of_parts env coherent coherent' woken known stream run fun rest first => ?_
  have calm : ∀ failure, engine.incoming activity ≠ .failed failure := by
    obtain ⟨-, -, -, -, held, -⟩ := (coherent.fits task activity known nofun).of_closing phase
    refine incoming_ne_failed coherent fun target waits => ?_
    obtain ⟨waiter, waits', bare⟩ := held.waits
    cases waits.symm.trans waits'
    exact bare
  rw [phase]
  cases comes : engine.incoming activity with
  | value v => exact parts_deliverFarewell (bidFarewell_mannered (polite _) stream)
  | failed failure => exact absurd comes (calm failure)
  | cancelled =>
    cases aborted with
    | false => exact parts_cancelled_farewell env (polite _) stream run _
    | true =>
      obtain ⟨-, -, -, -, -, -, -, wanted⟩ := ((alone rfl).fits task activity known nofun).of_closing phase
      exact absurd rfl (wanted (roused_of_incoming comes))

theorem unwoken_of_ended (coherent : engine.Coherent touched none) {outcome : Outcome}
    (ended : engine.loop.outcome? task = some outcome) : engine.woken? ≠ some task := by
  intro woken
  obtain ⟨-, rest, first⟩ := woken?_eq_some_iff.mp woken
  obtain ⟨-, activity, unfinished⟩ := coherent.sound.ready task (first ▸ List.mem_cons_self ..)
  cases ended.symm.trans unfinished.2

theorem Departed.apply (env : Environment) (coherent : engine.Coherent (fun _ => True) none)
    (mannered : engine.Mannered) {aborted : Bool} (departed : engine.Departed task aborted)
    (others : move ≠ .cancelTask task) : (engine.apply env move).Departed task aborted := by
  have moved := moved_apply env coherent move
  cases departed with
  | closing activity stream run known phase alone =>
    by_cases woken : move = .turn ∧ engine.woken? = some task
    · obtain ⟨rfl, woken⟩ := woken
      exact departed_of_closing env coherent (coherent.apply env .turn fun _ _ => trivial) mannered
        woken known phase alone
    · obtain ⟨found, unfinished, phase', -⟩ := moved.unfinished coherent known
        fun turn same => woken ⟨turn, same⟩
      refine .closing found stream run unfinished (phase'.trans phase) fun spoilt => ?_
      exact (alone spoilt).apply env move fun id cancels same => others (same ▸ cancels)
  | ended ended => exact .ended (moved.ended coherent ended)

theorem Departed.not_spoiled (coherent : engine.Coherent touched none) {aborted : Bool}
    (departed : engine.Departed task aborted) : ¬engine.Spoiled task := by
  intro spoilt
  cases departed with
  | closing activity stream run known phase =>
    have given := (spoiled_iff spoilt.1 known).mp spoilt
    simp [phase] at given
  | ended ended => exact unwoken_of_ended coherent ended spoilt.1

/-- One move of a run. Only a turn from an aborted call or stream changes how the completion leaves. -/
theorem Leaving.apply (env : Environment) (coherent : engine.Coherent (fun _ => True) none)
    (manned : engine.Manned) (mannered : engine.Mannered) {aborted : Bool}
    (leaving : engine.Leaving task aborted) (others : move ≠ .cancelTask task) : ∃ aborted',
      (engine.apply env move).Leaving task aborted' ∧
        (aborted' = true ↔ aborted = true ∨ move = .turn ∧ engine.Spoiled task) := by
  cases leaving with
  | told activity known asked doomed unheard =>
    by_cases woken : move = .turn ∧ engine.woken? = some task
    · obtain ⟨rfl, woken⟩ := woken
      obtain ⟨aborted', departed, spoiled⟩ := doomed.turn env coherent
        (coherent.apply env .turn fun _ _ => trivial) manned mannered woken known asked
      exact ⟨aborted', .departed departed, by simp [unheard, spoiled]⟩
    · have unwoken : move = .turn → engine.woken? ≠ some task := fun turn same => woken ⟨turn, same⟩
      obtain ⟨found, unfinished, phase, -⟩ :=
        (moved_apply env coherent move).unfinished coherent known unwoken
      have doomed' := doomed.apply env coherent mannered.heeds known asked unwoken
      refine ⟨aborted, .told found unfinished (phase ▸ asked) doomed' unheard, Or.inl, ?_⟩
      exact fun either => either.elim id fun spoilt => absurd spoilt.2.1 (unwoken spoilt.1)
  | departed departed =>
    refine ⟨aborted, .departed (departed.apply env coherent mannered others), Or.inl, ?_⟩
    exact fun either => either.elim id fun spoilt =>
      absurd spoilt.2 (departed.not_spoiled coherent)

/-- A whole run. The induction is on its moves. -/
theorem Leaving.play (env : Environment) (coherent : engine.Coherent (fun _ => True) none)
    (manned : engine.Manned) {aborted : Bool} (leaving : engine.Leaving task aborted)
    {moves : List Move} (others : .cancelTask task ∉ moves)
    (mannered : ∀ ahead, ahead <+: moves → (engine.play env ahead).Mannered) : ∃ aborted',
      (engine.play env moves).Leaving task aborted' ∧ (aborted' = true ↔ aborted = true ∨
        ∃ ahead, ahead ++ [.turn] <+: moves ∧ (engine.play env ahead).Spoiled task) := by
  induction moves generalizing engine aborted with
  | nil => exact ⟨aborted, leaving, by simp⟩
  | cons move rest ih =>
    have other : move ≠ .cancelTask task := fun same => others (same ▸ List.mem_cons_self ..)
    obtain ⟨middle, leaving', first⟩ :=
      leaving.apply env coherent manned (mannered [] List.nil_prefix) other
    obtain ⟨last, leaving'', later⟩ := ih (coherent.apply env move fun _ _ => trivial)
      (manned.apply env coherent move) leaving' (fun member => others (List.mem_cons_of_mem _ member))
      fun ahead within => mannered (move :: ahead) ((List.prefix_cons_inj move).mpr within)
    refine ⟨last, leaving'', later.trans ?_⟩
    rw [first, or_assoc]
    refine or_congr_right ⟨fun either => ?_, fun given => ?_⟩
    · rcases either with ⟨turn, spoilt⟩ | ⟨ahead, within, spoilt⟩
      · exact ⟨[], by simp [turn], spoilt⟩
      · exact ⟨move :: ahead, (List.prefix_cons_inj move).mpr within, spoilt⟩
    · obtain ⟨ahead, within, spoilt⟩ := given
      cases ahead with
      | nil =>
        have turn : Move.turn = move := (List.cons_prefix_cons.mp within).1
        exact Or.inl ⟨turn.symm, spoilt⟩
      | cons head ahead =>
        obtain ⟨same, further⟩ := List.cons_prefix_cons.mp within
        subst same
        exact Or.inr ⟨ahead, further, spoilt⟩

/-! Leaving takes only turns. -/

/-- A task that waits for what has not ended has not been told to stop. -/
theorem Coherent.not_roused (coherent : engine.Coherent touched none)
    (known : engine.loop.Unfinished task activity) {target : Nat}
    (waits : activity.waitingFor = some target) (pending : engine.loop.isPending target = true) :
    ¬engine.loop.Roused activity := by
  have unsettled := ((Loop.isPending_iff _ target).mp pending).2
  intro roused
  rcases coherent.sound.rests task activity known nofun with awake | ⟨-, unasked, -⟩
  · exact (Loop.isDone_iff _ target).mp (awake.2 target waits) unsettled
  · rcases roused with asked | ⟨other, waits', ended⟩
    · cases unasked.symm.trans asked
    · cases waits.symm.trans waits'
      cases ended.symm.trans unsettled

/-- Whoever waits for a stream to be closed waits at the gate. -/
theorem parting_of_closing (coherent : engine.Coherent touched none)
    (known : engine.loop.Unfinished task activity) {target stream : Nat} {reading : Outcome}
    (phase : activity.phase = .closing stream (.completion run reading))
    (waits : activity.waitingFor = some target) (pending : engine.loop.isPending target = true) :
    engine.Parting task := by
  obtain ⟨-, -, -, -, ⟨waiter, waits', -, stands⟩, -⟩ :=
    (coherent.fits task activity known nofun).of_closing phase
  cases waits.symm.trans waits'
  refine ⟨?_, activity, stream, _, target, known, phase, waits, pending, stands pending⟩
  refine Bool.eq_false_iff.mpr fun opened => ?_
  have empty := coherent.open_gate opened
  simp [empty] at stands
  exact absurd pending (by simpa using stands)

/-- A cancellation that is on its way to a task arrives. -/
theorem Undisturbed.hears (undisturbed : Undisturbed env touched engine)
    (known : engine.loop.Unfinished task activity)
    (doomed : ∀ n found target, (runTurns env n engine).loop.Unfinished task found →
      found.waitingFor = some target → (runTurns env n engine).loop.isPending target = true →
      (runTurns env n engine).Doomed task) : ∃ n, (runTurns env n engine).woken? = some task := by
  refine Classical.byContradiction fun unwoken => ?_
  obtain ⟨target, stays⟩ := undisturbed.stays known (not_exists.mp unwoken)
  have struck (n : Nat) : (runTurns env n engine).loop.Struck none target := by
    obtain ⟨pending, found, unfinished, phase, waits⟩ := stays n
    rcases doomed n found target unfinished waits pending with
      hit | ⟨other, target', unfinished', waits', hit⟩
    · rcases hit with runs | ended | ⟨other, unfinished', roused⟩
      · cases runs
      · cases ended.symm.trans unfinished.2
      · cases unfinished.unique unfinished'
        exact absurd roused ((undisturbed.coherent n).not_roused unfinished waits pending)
    · cases unfinished.unique unfinished'
      cases waits.symm.trans waits'
      exact hit
  have going (n : Nat) : ∃ other, (runTurns env n engine).loop.Unfinished target other ∧
      (runTurns env n engine).loop.Roused other := by
    have unsettled := ((Loop.isPending_iff _ target).mp (stays n).1).2
    rcases struck n with runs | ended | roused
    · cases runs
    · cases ended.symm.trans unsettled
    · exact roused
  obtain ⟨n, other, waiter, unfinished, waits, pending⟩ := undisturbed.sleeps fun n => by
    obtain ⟨other, unfinished, -⟩ := going n
    exact ⟨other, unfinished⟩
  obtain ⟨found, unfinished', roused⟩ := going n
  cases unfinished.unique unfinished'
  exact (undisturbed.coherent n).not_roused unfinished waits pending roused

/-- After its own turn a completion on its way out has ended, or its stream waits to be closed. -/
theorem Leaving.turn (env : Environment) (coherent : engine.Coherent (fun _ => True) none)
    (manned : engine.Manned) (mannered : engine.Mannered) {aborted : Bool}
    (leaving : engine.Leaving task aborted) (woken : engine.woken? = some task) :
    (engine.apply env .turn).loop.isDone task = true ∨ (engine.apply env .turn).Parting task := by
  have coherent' : (engine.apply env .turn).Coherent (fun _ => True) none :=
    coherent.apply env .turn fun _ _ => trivial
  obtain ⟨-, rest, first⟩ := woken?_eq_some_iff.mp woken
  obtain ⟨-, before, known⟩ := coherent.sound.ready task (first ▸ List.mem_cons_self ..)
  obtain ⟨last, departed⟩ : ∃ last, (engine.apply env .turn).Departed task last := by
    cases leaving with
    | told activity known asked doomed =>
      obtain ⟨last, departed, -⟩ := doomed.turn env coherent coherent' manned mannered woken known asked
      exact ⟨last, departed⟩
    | departed departed =>
      exact ⟨aborted, departed.apply env coherent mannered fun same => by cases same⟩
  cases departed with
  | ended ended =>
    left
    rw [Loop.isDone_iff, ended]
    nofun
  | closing activity stream run unfinished phase =>
    obtain ⟨-, target, -, waits, -, pending⟩ := wait_of_woken env coherent woken known unfinished
    exact Or.inr (parting_of_closing coherent' unfinished phase waits pending)

/-- A completion on its way out ends, unless the gate keeps its stream from being closed. -/
theorem Leaving.ends (undisturbed : Undisturbed env (fun _ => True) engine) (manned : engine.Manned)
    (mannered : engine.Mannered) {aborted : Bool} (leaving : engine.Leaving task aborted) :
    ∃ n, (runTurns env n engine).loop.isDone task = true ∨ (runTurns env n engine).Parting task := by
  refine Classical.byContradiction fun never => ?_
  have free (n : Nat) : ¬(runTurns env n engine).Parting task := fun parting => never ⟨n, Or.inr parting⟩
  have good (n : Nat) : (runTurns env n engine).Manned ∧ (runTurns env n engine).Mannered ∧
      ∃ aborted, (runTurns env n engine).Leaving task aborted := by
    induction n with
    | zero => exact ⟨manned, mannered, aborted, leaving⟩
    | succ n ih =>
      obtain ⟨manned', mannered', aborted', leaving'⟩ := ih
      have coherent := undisturbed.coherent n
      have other : Move.turn ≠ .cancelTask task := fun same => by cases same
      obtain ⟨last, leaving'', -⟩ := leaving'.apply env coherent manned' mannered' other
      rw [runTurns_turn]
      exact ⟨manned'.turn env coherent, mannered'.turn env coherent manned', last, leaving''⟩
  have unended (n : Nat) (outcome : Outcome) :
      (runTurns env n engine).loop.outcome? task ≠ some outcome := by
    intro ended
    refine never ⟨n, Or.inl ((Loop.isDone_iff _ task).mpr ?_)⟩
    rw [ended]
    nofun
  obtain ⟨activity, known⟩ : ∃ activity, engine.loop.Unfinished task activity := by
    cases leaving with
    | told activity known => exact ⟨activity, known⟩
    | departed departed =>
      cases departed with
      | closing activity stream run known => exact ⟨activity, known⟩
      | ended ended => exact absurd ended (unended 0 _)
  obtain ⟨n, woken⟩ := undisturbed.hears known fun n found target unfinished waits pending => by
    obtain ⟨-, -, aborted', leaving'⟩ := good n
    cases leaving' with
    | told _ _ _ doomed => exact doomed
    | departed departed =>
      cases departed with
      | closing activity' stream run known' phase =>
        cases unfinished.unique known'
        exact absurd (parting_of_closing (undisturbed.coherent n) unfinished phase waits pending) (free n)
      | ended ended => exact absurd ended (unended n _)
  obtain ⟨manned', mannered', aborted', leaving'⟩ := good n
  have after := leaving'.turn env (undisturbed.coherent n) manned' mannered' woken
  have later := runTurns_turn env n engine
  exact never ⟨n + 1, by rw [later]; exact after⟩

/-- Where the cancellation of a completion goes whose call has begun, in every run in which the client
minds being cancelled. The completion ends as cancelled, unless it went on from a call or a stream that
was aborted by then: in that case it ends with nothing. It always ends, unless the loop is interrupted
or the gate of the client keeps its stream from being closed. -/
theorem cancellation_propagates (env : Environment) (client : Client)
    (seats : List (Settings × Cache Float)) {past next : List Move} {task : Nat} {phase : Phase}
    (known : (reached env client seats past).phaseOf task = some phase)
    (asked : phase.asked = true) (once : .cancelTask task ∉ next)
    (mannered : ∀ ahead, ahead <+: next →
      (reached env client seats (past ++ .cancelTask task :: ahead)).Mannered) :
    (∀ outcome, (reached env client seats (past ++ .cancelTask task :: next)).loop.outcome? task =
        some outcome → (outcome = .cancelled ∨ outcome = .value .nothing) ∧
      (outcome = .value .nothing ↔ ∃ ahead, ahead ++ [.turn] <+: next ∧
        (reached env client seats (past ++ .cancelTask task :: ahead)).Spoiled task)) ∧
    ∃ n, let later := runTurns env n (reached env client seats (past ++ .cancelTask task :: next))
      later.interrupted ≠ none ∨ later.loop.isDone task = true ∨ later.Parting task := by
  have coherent (moves : List Move) : (reached env client seats moves).Coherent (fun _ => True) none :=
    (coherent_play env client seats moves).mono fun _ _ => trivial
  have reaches (ahead : List Move) : reached env client seats (past ++ .cancelTask task :: ahead) =
      ((reached env client seats past).apply env (.cancelTask task)).play env ahead := by
    rw [reached, play_append]
    rfl
  obtain ⟨activity, unfinished, rfl⟩ := phaseOf_eq_some_iff.mp known
  have leaving : ((reached env client seats past).apply env (.cancelTask task)).Leaving task false := by
    obtain ⟨found, unfinished', phase', -⟩ :=
      (moved_apply env (coherent past) (.cancelTask task)).unfinished (coherent past) unfinished
        fun same => by cases same
    exact .told found unfinished' (phase' ▸ asked)
      (doomed_cancelTask env (coherent past) unfinished asked) rfl
  have begins : ((reached env client seats past).apply env (.cancelTask task)).Coherent
      (fun _ => True) none := (coherent past).apply env _ fun _ _ => trivial
  have manned := (manned_play env client seats past).apply env (coherent past) (.cancelTask task)
  simp only [reaches] at mannered ⊢
  obtain ⟨aborted, leaves, spoiled⟩ := leaving.play env begins manned once mannered
  have spoiled := spoiled.trans (or_iff_right Bool.false_ne_true)
  refine ⟨fun outcome ended => ?_, ?_⟩
  · cases leaves with
    | told activity known =>
      cases ended.symm.trans known.2
    | departed departed =>
      cases departed with
      | closing activity stream run known => cases ended.symm.trans known.2
      | ended ended' =>
        cases ended.symm.trans ended'
        rw [← spoiled]
        cases aborted <;> simp [cancelledResult]
  · by_cases stops : ∃ n, (runTurns env n (((reached env client seats past).apply env
        (.cancelTask task)).play env next)).interrupted ≠ none
    · obtain ⟨n, stopped⟩ := stops
      exact ⟨n, Or.inl stopped⟩
    · have undisturbed : Undisturbed env (fun _ => True) (((reached env client seats past).apply env
          (.cancelTask task)).play env next) :=
        { coherent := coherent_runTurns (begins.play env next fun _ _ => trivial) env
          going := fun n => Classical.not_not.mp (not_exists.mp stops n) }
      have manned' := begins.play_invariant env next (fun _ _ => trivial)
        (fun engine move coherent manned => Manned.apply env coherent manned move) manned
      obtain ⟨n, ends⟩ := leaves.ends undisturbed manned' (mannered next (List.prefix_refl _))
      exact ⟨n, Or.inr ends⟩

/-- The request is cancelled before the task hears that its caller gave it up. -/
def overtaken : List Move :=
  [.cancel 0, .turn, .turn]

/-- The caller of a completion that cancels it gets nothing, if the request is cancelled at once. -/
theorem cancellation_overtaken :
    (solo whole [.request 0 blank ⟨0, 0⟩, .turn]).phaseOf 0 = some (.calling 1 (some firstRun)) ∧
      (solo whole ([.request 0 blank ⟨0, 0⟩, .turn] ++ .cancelTask 0 :: overtaken)).loop.outcome? 0 =
        some (.value .nothing) ∧
      ∃ ahead, ahead ++ [.turn] <+: overtaken ∧
        (solo whole ([.request 0 blank ⟨0, 0⟩, .turn] ++ .cancelTask 0 :: ahead)).Spoiled 0 := by
  have known : (solo whole [.request 0 blank ⟨0, 0⟩, .turn]).phaseOf 0 =
      some (.calling 1 (some firstRun)) := rfl
  have ended : (solo whole ([.request 0 blank ⟨0, 0⟩, .turn] ++
      .cancelTask 0 :: overtaken)).loop.outcome? 0 = some (.value .nothing) := by decide
  have once : Move.cancelTask 0 ∉ overtaken := by simp [overtaken]
  have mannered (ahead : List Move) (within : ahead <+: overtaken) :
      (solo whole ([.request 0 blank ⟨0, 0⟩, .turn] ++ .cancelTask 0 :: ahead)).Mannered := by
    have calm : ∀ k < 4, (solo whole ([.request 0 blank ⟨0, 0⟩, .turn] ++
          .cancelTask 0 :: overtaken.take k)).client.heedless = false ∧
        (solo whole ([.request 0 blank ⟨0, 0⟩, .turn] ++
          .cancelTask 0 :: overtaken.take k)).streams.length = 0 := by
      decide
    have short : ahead.length < 4 := Nat.lt_succ_of_le within.length_le
    rw [List.prefix_iff_eq_take.mp within]
    obtain ⟨heeds, none⟩ := calm ahead.length short
    refine ⟨heeds, fun id stream there => ?_⟩
    rw [List.length_eq_zero_iff.mp none] at there
    cases there
  have propagates := cancellation_propagates _ _ _ known rfl once mannered
  exact ⟨known, ended, (propagates.1 _ ended).2.mp rfl⟩

end Engine

end InlineCompletion
