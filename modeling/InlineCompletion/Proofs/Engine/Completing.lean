import InlineCompletion.Proofs.Engine.Errands

/-!
The task of a completion from its debounce to its end. At every point where it waits it has one
thing to wait for, and it passes a cancellation on only when the completion was to be cancelled.
-/

namespace InlineCompletion.Engine

variable {engine : Engine} {touched : Nat → Prop} {running : Option (Nat × Outcome)}
  {task : Nat} {outcome result : Outcome} {phase : Phase} {run : Run}

/-- A task that runs for a completion, which is its own. -/
structure Completing (engine : Engine) (touched : Nat → Prop) (task : Nat) (outcome : Outcome)
    (run : Run) : Prop where
  coherent : engine.Coherent touched (some (task, outcome))
  acts : ∃ phase, engine.Acts task phase ∧ phase.isCompletion = true
  sole : engine.Sole task (.request run.request)

namespace Completing

theorem steady {new : Engine} (completing : engine.Completing touched task outcome run)
    (coherent : new.Coherent touched (some (task, outcome))) (steady : Steady engine new) :
    new.Completing touched task outcome run := by
  obtain ⟨-, ⟨phase, acts, completes⟩, sole⟩ := completing
  exact ⟨coherent, ⟨phase, acts.steady steady, completes⟩, sole.steady steady⟩

theorem alike {new : Engine} (completing : engine.Completing touched task outcome run)
    (alike : Alike engine new) : new.Completing touched task outcome run :=
  completing.steady (completing.coherent.alike alike) (.of_loop_eq alike.loop)

/-- It does no errand. -/
theorem not_does (completing : engine.Completing touched task outcome run) (errand : Errand) :
    ¬engine.Does errand task := by
  intro does
  obtain ⟨phase, acts, completes⟩ := completing.acts
  obtain ⟨activity, same, doing⟩ := acts.doing does
  have false := doing.isCompletion_eq_false
  rw [same, completes] at false
  cases false

theorem inOrder_done (completing : engine.Completing touched task outcome run)
    (wanted : result = .cancelled → touched task) :
    InOrder touched task outcome (engine, .done result) :=
  ⟨completing.coherent, fun request _ does => absurd does (completing.not_does (.watch request)),
    fun errand does => absurd does (completing.not_does errand), fun _ _ _ _ => wanted⟩

theorem inOrder_wait {target : Nat} (completing : engine.Completing touched task outcome run)
    (pending : engine.loop.isPending target = true)
    (free : ∀ other found, engine.loop.Unfinished other found → found.waitingFor ≠ some target)
    (apart : ∀ belonging ∈ phase.belongings, engine.Sole task belonging)
    (fits : engine.Fits touched (some (task, outcome)) task { phase, waitingFor := some target }) :
    InOrder touched task outcome (engine, .wait target phase) :=
  ⟨completing.coherent, pending, free, fun errand does => absurd does (completing.not_does errand),
    fun request does => absurd does (completing.not_does (.watch request)), apart, fits⟩

/-! The end of a completion. -/

theorem inOrder_endRun (completing : engine.Completing touched task outcome run)
    (wanted : result = .cancelled → touched task) :
    InOrder touched task outcome (engine.endRun run result) := by
  unfold endRun
  split
  · exact (completing.alike (alike_modifyOrchestrator ..)).inOrder_done wanted
  · exact completing.inOrder_done wanted

theorem inOrder_acceptReply (env : Environment)
    (completing : engine.Completing touched task outcome run) (raw : Text) :
    InOrder touched task outcome (engine.acceptReply env run raw) := by
  unfold acceptReply
  split
  · exact completing.inOrder_endRun nofun
  · dsimp only
    split
    · exact completing.inOrder_endRun nofun
    · unfold store
      split
      · exact completing.inOrder_endRun nofun
      · exact ((completing.alike (alike_emit ..)).alike
          (alike_modifyOrchestrator ..)).inOrder_endRun nofun

theorem inOrder_afterCall (env : Environment)
    (completing : engine.Completing touched task outcome run)
    (wanted : result = .cancelled → touched task) :
    InOrder touched task outcome (engine.afterCall env run result) := by
  cases result with
  | cancelled => exact completing.inOrder_endRun wanted
  | failed failure =>
    unfold afterCall
    dsimp only
    split
    · exact completing.inOrder_endRun nofun
    · split
      · exact completing.inOrder_endRun nofun
      · exact (completing.alike (alike_emit ..)).inOrder_endRun nofun
  | value v =>
    unfold afterCall
    dsimp only
    split
    · exact completing.inOrder_acceptReply env _
    · exact completing.inOrder_endRun nofun

/-! A stream is closed. -/

theorem inOrder_afterClosing (env : Environment)
    (completing : engine.Completing touched task outcome run) {reading closing : Outcome}
    (wanted : reading = .cancelled → touched task) (wanted' : closing = .cancelled → touched task) :
    InOrder touched task outcome (engine.afterClosing env (.completion run reading) closing) := by
  cases closing with
  | value v => exact completing.inOrder_afterCall env wanted
  | failed failure => exact completing.inOrder_afterCall env nofun
  | cancelled => exact completing.inOrder_afterCall env wanted'

end Completing

/-- The request reads the stream, and nobody else does. -/
structure Reads (engine : Engine) (task : Nat) (run : Run) (stream : Nat) : Prop where
  sole : engine.Sole task (.stream stream)
  attached : ∃ request, engine.requests[run.request]? = some request ∧
    request.stream = some stream
  known : ∃ found, engine.streams[stream]? = some found

theorem Reads.alike {new : Engine} {stream : Nat} (reads : engine.Reads task run stream)
    (alike : Alike engine new) : new.Reads task run stream := by
  obtain ⟨sole, attached, found, known⟩ := reads
  obtain ⟨other, known', -⟩ := alike.stream known
  exact ⟨sole.steady (.of_loop_eq alike.loop), alike.requests ▸ attached, other, known'⟩

namespace Completing

theorem inOrder_deliverFarewell (env : Environment)
    (completing : engine.Completing touched task outcome run) {stream : Nat}
    (reads : engine.Reads task run stream) {reading : Outcome}
    (wanted : reading = .cancelled → touched task) {answer : Option Outcome × Engine}
    (alike : Alike engine answer.2)
    (blocked : answer.1 = none → answer.2.client.gateOpen = false)
    (stopped : answer.1 = some .cancelled → touched task) :
    InOrder touched task outcome (deliverFarewell env stream (.completion run reading) answer) := by
  obtain ⟨closing, engine'⟩ := answer
  have completing' := completing.alike alike
  have reads' := reads.alike alike
  cases closing with
  | some closing =>
    exact completing'.inOrder_afterClosing env wanted fun cancelled => stopped (cancelled ▸ rfl)
  | none =>
    obtain ⟨new, target, same, coherent', gated⟩ := completing'.coherent.awaitGate (blocked rfl)
      (.closing stream (.completion run reading))
    have waiting := completing'.steady coherent' gated.steady
    obtain ⟨found, known⟩ := reads'.known
    show InOrder touched task outcome (engine'.awaitGate _)
    rw [same]
    refine waiting.inOrder_wait gated.pending
      (free_of_fresh completing'.coherent gated.steady gated.fresh) ?_ ?_
    · intro belonging member
      simp only [Phase.belongings, List.mem_cons, List.not_mem_nil, or_false] at member
      rcases member with rfl | rfl
      · exact waiting.sole
      · exact reads'.sole.steady gated.steady
    · refine .closing stream run reading found rfl (gated.held _) ?_ ?_ wanted ?_
      · exact gated.requests ▸ reads'.attached
      · exact gated.streams ▸ known
      · exact fun roused => absurd roused (not_roused_of_pending gated.pending)

end Completing

/-- Only a closed gate holds a farewell back, and it is not cancelled by itself. -/
theorem bidFarewell_spec (engine : Engine) (id : Nat) :
    ((engine.bidFarewell id).1 = none → (engine.bidFarewell id).2.client.gateOpen = false) ∧
      (engine.bidFarewell id).1 ≠ some .cancelled := by
  unfold bidFarewell
  split
  · exact ⟨nofun, nofun⟩
  · split
    · exact ⟨nofun, nofun⟩
    · split
      · exact ⟨nofun, nofun⟩
      · exact ⟨nofun, nofun⟩
      · next blocked => exact ⟨fun _ => Client.pull_blocked blocked, nofun⟩

theorem resumeFarewell_spec (engine : Engine) (id : Nat) (outcome : Outcome) :
    ((engine.resumeFarewell id outcome).1 = none →
      (engine.resumeFarewell id outcome).2.client.gateOpen = false) ∧
      ((engine.resumeFarewell id outcome).1 = some .cancelled → outcome = .cancelled) := by
  have farewell := bidFarewell_spec engine id
  unfold resumeFarewell
  split
  · exact ⟨farewell.1, fun cancelled => absurd cancelled farewell.2⟩
  · split
    · exact ⟨farewell.1, fun cancelled => absurd cancelled farewell.2⟩
    · exact ⟨nofun, fun cancelled => Option.some.inj cancelled⟩

theorem Reads.finishStream {stream : Nat} (reads : engine.Reads task run stream) :
    (engine.finishStream stream).Reads task run stream := by
  obtain ⟨sole, attached, found, known⟩ := reads
  obtain ⟨found', known', -⟩ := stream_finishStream engine stream known
  exact ⟨sole.steady (steady_finishStream engine stream),
    (finishStream_frame engine stream).2 ▸ attached, found', known'⟩

theorem closeStream_alike (engine : Engine) (id : Nat) :
    Alike (engine.finishStream id) (engine.closeStream id).2 := by
  have same : Alike (engine.finishStream id) (engine.finishStream id) :=
    ⟨rfl, rfl, fun known => known, rfl, rfl, rfl, rfl, rfl, fun _ member => member⟩
  unfold closeStream
  dsimp only
  split
  · exact same
  · split
    · exact same
    · split
      · exact same
      · dsimp only
        exact alike_modifySource ..

theorem Completing.inOrder_closeFor (env : Environment)
    (completing : engine.Completing touched task outcome run) {stream : Nat}
    (reads : engine.Reads task run stream) {reading : Outcome}
    (wanted : reading = .cancelled → touched task) :
    InOrder touched task outcome (engine.closeFor env stream (.completion run reading)) := by
  have finished := completing.steady (completing.coherent.finishStream stream)
    (steady_finishStream engine stream)
  have alike := closeStream_alike engine stream
  have closed := finished.alike alike
  have reads' := reads.finishStream.alike alike
  unfold closeFor
  split
  · next new same =>
    rw [same] at closed reads'
    have farewell := bidFarewell_spec new stream
    exact closed.inOrder_deliverFarewell env reads' wanted (alike_bidFarewell ..) farewell.1
      fun cancelled => absurd cancelled farewell.2
  · next failure new same =>
    rw [same] at closed
    exact closed.inOrder_afterClosing env wanted nofun

/-! A new task. -/

theorem unfinished_new (engine : Engine) (job : Job) :
    (engine.spawn job).2.loop.Unfinished engine.loop.futures.length { phase := .start job } := by
  show (engine.loop.spawn (.start job)).2.Unfinished engine.loop.futures.length _
  exact (Loop.unfinished_spawn (Phase.start job) _ _).mpr (Or.inl ⟨rfl, rfl⟩)

theorem does_spawn {job : Job} {errand : Errand}
    (begins : (engine.spawn job).2.Doing errand { phase := .start job }) :
    (engine.spawn job).2.Does errand engine.loop.futures.length := by
  have new := unfinished_new engine job
  refine ⟨⟨_, new.1⟩, fun activity unfinished => ?_⟩
  cases new.unique unfinished
  exact begins

theorem isPending_spawn (engine : Engine) (job : Job) :
    (engine.spawn job).2.loop.isPending engine.loop.futures.length = true := by
  have new := unfinished_new engine job
  exact (Loop.isPending_iff _ _).mpr ⟨new.lt, new.2⟩

theorem not_struck_spawn (job : Job) (other : running.map Prod.fst ≠ some engine.loop.futures.length) :
    ¬(engine.spawn job).2.loop.Struck running engine.loop.futures.length := by
  have new := unfinished_new engine job
  intro either
  rcases either with runs | ended | ⟨activity, unfinished, roused⟩
  · rw [runs] at other
    exact other rfl
  · cases new.2.symm.trans ended
  · cases new.unique unfinished
    rcases roused with requested | ⟨target, waits, -⟩
    · cases requested
    · cases waits

/-- The running task is not new. -/
theorem Coherent.running_lt (coherent : engine.Coherent touched (some (task, outcome))) :
    task < engine.loop.futures.length := by
  obtain ⟨activity, unfinished, -⟩ := coherent.sound.runs task rfl
  exact unfinished.lt

theorem Coherent.running_ne (coherent : engine.Coherent touched (some (task, outcome))) :
    (some (task, outcome)).map Prod.fst ≠ some engine.loop.futures.length := by
  intro same
  exact absurd (Option.some.inj same) (Nat.ne_of_lt coherent.running_lt)

/-! Reading. -/

theorem collected_ne_cancelled (pieces : List Text) (failure : Failure) :
    collected pieces (.failed failure) ≠ .cancelled := by
  unfold collected
  split <;> nofun

/-- The next read has begun, and its reader waits for it. -/
theorem Completing.inOrder_read (completing : engine.Completing touched task outcome run)
    {stream : Nat} (reads : engine.Reads task run stream) (pieces : List Text) :
    InOrder touched task outcome
      ((engine.spawn (.pull stream)).2.modifyStream stream fun s =>
          { s with pending := some engine.loop.futures.length },
        .wait engine.loop.futures.length (.reading stream (.completion run pieces))) := by
  obtain ⟨sole, attached, found, known⟩ := reads
  have coherent := completing.coherent
  have spawned : (engine.spawn (.pull stream)).2.Coherent touched (some (task, outcome)) :=
    coherent.spawn trivial
  have steady : Steady engine (engine.spawn (.pull stream)).2 :=
    steady_spawn engine fun _ _ _ other => by cases other
  have sole' : (engine.spawn (.pull stream)).2.Sole task (.stream stream) := sole.steady steady
  have does : (engine.spawn (.pull stream)).2.Does (.pull stream) engine.loop.futures.length :=
    does_spawn (Or.inl rfl)
  have marked := spawned.setPending (some engine.loop.futures.length)
    (fun other same => Option.some.inj same ▸ does)
    fun other next unfinished others => sole' other next unfinished fun same => others (same ▸ rfl)
  have reading := completing.steady marked (steady.to_same rfl)
  refine reading.inOrder_wait (isPending_spawn engine (.pull stream))
    (free_of_fresh coherent steady (Nat.le_refl _)) ?_ ?_
  · intro belonging member
    simp only [Phase.belongings, List.mem_cons, List.not_mem_nil, or_false] at member
    rcases member with rfl | rfl
    · exact reading.sole
    · exact sole'
  · refine .reading stream engine.loop.futures.length run pieces
      { found with pending := some engine.loop.futures.length } rfl rfl (does.congr rfl rfl)
      attached (stream_modifyStream _ stream _ known) rfl (fun struck => ?_)
      fun wanted => by cases wanted
    exact absurd struck (not_struck_spawn (.pull stream) coherent.running_ne)

theorem Completing.inOrder_readFor (env : Environment)
    (completing : engine.Completing touched task outcome run) {stream : Nat}
    (reads : engine.Reads task run stream) (pieces : List Text) :
    InOrder touched task outcome (engine.readFor env run stream pieces) := by
  have ended (failure : Failure) : InOrder touched task outcome
      (engine.afterStream env run stream (collected pieces (.failed failure))) :=
    completing.inOrder_closeFor env reads
      fun cancelled => absurd cancelled (collected_ne_cancelled pieces failure)
  unfold readFor beginRead
  cases engine.streams[stream]? with
  | none => exact ended streamEnded
  | some found =>
    dsimp only
    by_cases aborted : found.aborted = true
    · simp only [aborted, if_true]
      exact ended streamAborted
    · by_cases closed : found.closed = true
      · simp only [aborted, closed, if_true]
        exact ended streamEnded
      · simp only [aborted, closed]
        exact completing.inOrder_read reads pieces

/-! Asking the client. -/

theorem unasked_lt {id : Nat} (unasked : engine.Unasked id) : id < engine.requests.length := by
  obtain ⟨found, known, -⟩ := unasked
  exact (List.getElem?_eq_some_iff.mp known).1

theorem request_modifyRequest {id : Nat} {request : Request} (f : Request → Request)
    (known : engine.requests[id]? = some request) :
    (engine.modifyRequest id f).requests[id]? = some (f request) := by
  show (engine.requests.modify id f)[id]? = _
  rw [getElem?_modify, if_pos rfl, known]
  rfl

/-- Whether a task answers a call does not depend on the requests. -/
theorem Does.answers {id : Nat} (does : engine.Does .answer id) {requests : List Request}
    {client : Client} : ({ engine with requests, client } : Engine).Does .answer id :=
  does

/-- A live request waits for the call that it has made. -/
theorem Completing.inOrder_call (completing : engine.Completing touched task outcome run)
    (unasked : engine.Unasked run.request) (live : engine.isCancelled run.request = false)
    (call : Call) :
    InOrder touched task outcome ((engine.beginCall call).2.attachCall run.request
      (engine.beginCall call).1, .wait (engine.beginCall call).1
      (.calling (engine.beginCall call).1 (some run))) := by
  obtain ⟨request, known, -, free⟩ := unasked
  have coherent := completing.coherent
  have spawned : (engine.spawn (.answer call)).2.Coherent touched (some (task, outcome)) :=
    coherent.spawn trivial
  have steady : Steady engine (engine.spawn (.answer call)).2 :=
    steady_spawn engine fun _ _ _ other => by cases other
  have does : (engine.spawn (.answer call)).2.Does .answer engine.loop.futures.length :=
    does_spawn (Or.inl ⟨call, rfl⟩)
  have begun : (engine.beginCall call).2.Coherent touched (some (task, outcome)) :=
    spawned.addCall does
  have sole : (engine.beginCall call).2.Sole task (.request run.request) :=
    completing.sole.steady (steady.to_same rfl)
  have attached := begun.attach (fun r => { r with call := some engine.loop.futures.length })
    (fun _ => rfl) (fun _ => rfl) (fun found stream there same => (begun.requests _ found there).attached
      stream same) live
    fun other next unfinished others => sole other next unfinished fun same => others (same ▸ rfl)
  have alive : (engine.beginCall call).2.isCancelled run.request = false := live
  unfold attachCall
  simp only [alive, Bool.false_eq_true, if_false]
  have calling := completing.steady attached (steady.to_same rfl)
  refine calling.inOrder_wait (isPending_spawn engine (.answer call))
    (free_of_fresh coherent steady (Nat.le_refl _)) ?_ ?_
  · intro belonging member
    simp only [Phase.belongings, List.mem_cons, List.not_mem_nil, or_false] at member
    rcases member with rfl | rfl
    · exact calling.sole
    · exact coherent.sole_new.2.2.2.steady (steady.to_same rfl)
  · refine .calling engine.loop.futures.length run rfl rfl does.answers
      ⟨_, request_modifyRequest _ known, rfl, free⟩
      (List.mem_append_right _ (List.mem_singleton_self _)) (fun struck => ?_)
      fun wanted => by cases wanted
    exact absurd struck (not_struck_spawn (.answer call) coherent.running_ne)

/-- A live request reads the stream that it has opened. -/
theorem Completing.inOrder_stream (env : Environment)
    (completing : engine.Completing touched task outcome run)
    (unasked : engine.Unasked run.request) (live : engine.isCancelled run.request = false)
    (call : Call) :
    InOrder touched task outcome (((engine.openStream call).2.attachStream run.request
      (engine.openStream call).1).readFor env run (engine.openStream call).1 []) := by
  obtain ⟨request, known, -⟩ := unasked
  have coherent := completing.coherent
  have opened := coherent.openStream call
  have steady : Steady engine (engine.openStream call).2 := .of_loop_eq rfl
  have there : (engine.openStream call).2.streams[engine.streams.length]? =
      some { source := { opening := some call } } := List.getElem?_concat_length
  have attached := opened.attach (fun r => { r with stream := some engine.streams.length })
    (fun _ => rfl) (fun _ => rfl)
    (fun _ stream _ same => Option.some.inj same ▸ (List.getElem?_eq_some_iff.mp there).1) live
    fun other next unfinished others =>
      completing.sole other next unfinished fun same => others (same ▸ rfl)
  have alive : (engine.openStream call).2.isCancelled run.request = false := live
  unfold attachStream
  simp only [alive, Bool.false_eq_true, if_false]
  have reading := completing.steady attached (steady.to_same rfl)
  exact reading.inOrder_readFor env ⟨coherent.sole_new.2.1.steady (steady.to_same rfl),
    ⟨_, request_modifyRequest _ known, rfl⟩, ⟨_, there⟩⟩ []

theorem Completing.inOrder_generate (env : Environment)
    (completing : engine.Completing touched task outcome run)
    (unasked : engine.Unasked run.request) (live : engine.isCancelled run.request = false)
    (call : Call) : InOrder touched task outcome (engine.generate env run call) := by
  have asking := completing.alike (alike_emit engine (.asked run.request engine.loop.now call))
  unfold generate
  dsimp only
  split
  · exact asking.inOrder_stream env unasked live call
  · exact asking.inOrder_call unasked live call

/-! The debounce. -/

theorem not_isCancelled_of_isLive (live : engine.isLive run = true) :
    engine.isCancelled run.request = false := by
  unfold isLive at live
  rw [Bool.and_eq_true] at live
  simpa using live.2

theorem Completing.inOrder_afterDebounce (env : Environment)
    (completing : engine.Completing touched task outcome run)
    (unasked : engine.Unasked run.request) (wanted : result = .cancelled → touched task) :
    InOrder touched task outcome (engine.afterDebounce env run result) := by
  unfold afterDebounce
  split
  · next live _ =>
    split
    · exact (completing.alike (alike_emit ..)).inOrder_endRun nofun
    · have alive := not_isCancelled_of_isLive live
      exact (completing.alike (alike_modifyOrchestrator ..)).inOrder_generate env unasked alive _
  · exact completing.inOrder_endRun nofun
  · exact completing.inOrder_endRun wanted

theorem Completing.inOrder_unwinding (env : Environment)
    (completing : engine.Completing touched task outcome run)
    (unasked : engine.Unasked run.request) (watch : Nat) {timedOut : Bool}
    (early : timedOut = false → touched task) (wanted : outcome = .cancelled → touched task) :
    InOrder touched task outcome
      (deliver env (some run) (engine.resumeUnwinding watch timedOut outcome)) := by
  unfold resumeUnwinding
  split
  · next stopped =>
    refine completing.inOrder_afterDebounce env unasked fun _ => ?_
    rw [Bool.or_eq_true, decide_eq_true_eq, Bool.not_eq_true'] at stopped
    exact stopped.elim wanted early
  · exact completing.inOrder_afterDebounce env unasked nofun

theorem Coherent.watch_mem_belongings (coherent : engine.Coherent touched running) {other watch : Nat}
    {found : Activity Phase} {owner : Option Run} (unfinished : engine.loop.Unfinished other found)
    (others : running.map Prod.fst ≠ some other) (phase : found.phase = .debouncing watch owner) :
    .watch watch ∈ found.phase.belongings := by
  obtain ⟨run, rfl, -⟩ := (coherent.fits other found unfinished others).of_debouncing phase
  simp [phase, Phase.belongings]

/-- A waiter is made that the end of the watch releases. -/
theorem noted_watch {loop : Loop Phase} {watch waiter : Nat} (going : loop.isPending watch = true) :
    (loop.watch watch (.release waiter)).Noted watch waiter := by
  refine Or.inl ?_
  rw [Loop.watchers_watch, if_pos ⟨rfl, going⟩]
  exact List.mem_append_right _ (List.mem_singleton_self _)

/-- The completion waits for the end of the watch that it has cancelled. -/
theorem Completing.inOrder_unwindWatch (env : Environment)
    (completing : engine.Completing touched task outcome run)
    (unasked : engine.Unasked run.request) {watch : Nat}
    (does : engine.Does (.watch run.request) watch) (going : engine.loop.isDone watch ≠ true)
    (sole : engine.Sole task (.watch watch)) {timedOut : Bool}
    (early : timedOut = false → touched task) :
    InOrder touched task outcome
      (deliver env (some run) (engine.unwindWatch watch timedOut (some run))) := by
  have coherent := completing.coherent
  obtain ⟨loop, made⟩ : ∃ loop, loop =
      engine.loop.addFuture.2.watch watch (.release engine.loop.futures.length) := ⟨_, rfl⟩
  have bare := Loop.bare_addFuture engine.loop
  have grown : Loop.Grown engine.loop loop :=
    made ▸ (Loop.grown_addFuture engine.loop).trans (Loop.grown_watch bare watch)
  have ready : ({ engine with loop } : Engine).Coherent touched (some (task, outcome)) :=
    coherent.grown grown
  have does' : ({ engine with loop } : Engine).Does (.watch run.request) watch :=
    does.stirred coherent.sound grown.stirred
  obtain ⟨activity, known⟩ := does'.1
  have unfinished : loop.Unfinished watch activity := by
    refine ⟨known, Decidable.not_not.mp fun ended => going ?_⟩
    rw [← grown.isDone]
    exact (Loop.isDone_iff _ _).mpr ended
  have noted : loop.Noted watch engine.loop.futures.length := by
    refine made ▸ noted_watch ((Loop.isPending_iff _ _).mpr ?_)
    have inside := (grown.unfinished watch activity).mp unfinished
    exact ⟨by rw [Loop.length_addFuture]; exact Nat.lt_add_right _ inside.lt,
      (Loop.outcome?_addFuture ..).trans inside.2⟩
  have step : Loop.Cancelled loop watch (loop.cancel watch) := Loop.cancelled_cancel watch
  have stirred := step.stirred ready.sound known
  have sole' : ({ engine with loop } : Engine).Sole task (.watch watch) :=
    sole.steady (steady_grown grown)
  -- Nobody but its own completion minds the end of the watch.
  have cancelled := ready.cancelErrand does' (fun _ _ other found owner unfinished' others phase =>
    sole' other found unfinished' (fun same => others (same ▸ rfl))
      (ready.watch_mem_belongings unfinished' others phase)) nofun nofun
  have steady := (steady_grown grown).trans (steady_cancel _ watch)
  have unwinding := completing.steady cancelled steady
  have pending : (loop.cancel watch).isPending engine.loop.futures.length = true := by
    rw [Loop.isPending_iff, step.length, step.outcome_eq, grown.outcome]
    · exact ⟨(made ▸ (Loop.grown_watch bare watch).bare bare : loop.Bare _).1,
        Loop.outcome?_of_length_le _ (Nat.le_refl _)⟩
    · obtain ⟨other, there⟩ := does.1
      exact Nat.ne_of_lt (Loop.lt_of_activity? _ there)
    · exact free_of_fresh coherent (steady_grown grown) (Nat.le_refl _)
  have same : engine.unwindWatch watch timedOut (some run) =
      (({ engine with loop } : Engine).withLoop (·.cancel watch),
        .waiting engine.loop.futures.length (.unwinding watch timedOut (some run))) := by
    rw [made]
    rfl
  rw [same]
  refine unwinding.inOrder_wait pending (free_of_fresh coherent steady (Nat.le_refl _)) ?_ ?_
  · intro belonging member
    simp only [Phase.belongings, List.mem_cons, List.not_mem_nil, or_false] at member
    rcases member with rfl | rfl
    · exact unwinding.sole
    · exact sole.steady steady
  · refine .unwinding watch timedOut run rfl ⟨_, rfl, ?_, stirred.noted _ _ noted, unasked, ?_⟩
      (Or.inr ?_) early fun roused => absurd roused (not_roused_of_pending pending)
    · exact stirred.bare (made ▸ (Loop.grown_watch bare watch).bare bare)
    · exact does'.stirred ready.sound stirred
    · exact (Does.leaf ready does').struck_cancel unfinished

theorem Completing.inOrder_debouncing (env : Environment)
    (completing : engine.Completing touched task outcome run)
    (unasked : engine.Unasked run.request) {watch : Nat}
    (does : engine.Does (.watch run.request) watch)
    (sole : engine.Sole task (.watch watch))
    (unstruck : engine.loop.outcome? watch ≠ some .cancelled)
    (calm : ∀ failure, engine.loop.outcome? watch ≠ some (.failed failure))
    (wanted : outcome = .cancelled → touched task) :
    InOrder touched task outcome
      (deliver env (some run) (engine.resumeDebounce watch (some run) outcome)) := by
  unfold resumeDebounce
  split
  · next ended =>
    rw [Loop.isDone_iff] at ended
    refine completing.inOrder_afterDebounce env unasked fun cancelled => ?_
    cases found : engine.loop.outcome? watch with
    | none => exact absurd found ended
    | some o =>
      rw [found] at cancelled
      cases o with
      | value v => cases cancelled
      | failed failure => exact absurd found (calm failure)
      | cancelled => exact absurd found unstruck
  · next going =>
    refine completing.inOrder_unwindWatch env unasked does going sole fun early => wanted ?_
    simpa using early

/-- The completion waits for a waiter that a new watch releases, among others. -/
theorem Completing.inOrder_watch (completing : engine.Completing touched task outcome run)
    (unasked : engine.Unasked run.request) {waiter : Nat} (bare : engine.loop.Bare waiter)
    (pending : engine.loop.isPending waiter = true)
    (free : ∀ other found, engine.loop.Unfinished other found → found.waitingFor ≠ some waiter) :
    InOrder touched task outcome ((engine.spawn (.watch run.request)).2.withLoop
        (·.watch engine.loop.futures.length (.release waiter)),
      .wait waiter (.debouncing engine.loop.futures.length (some run))) := by
  have coherent := completing.coherent
  have spawned : (engine.spawn (.watch run.request)).2.Coherent touched (some (task, outcome)) :=
    coherent.spawn (unasked_lt unasked)
  have new := unfinished_new engine (.watch run.request)
  have does : (engine.spawn (.watch run.request)).2.Does (.watch run.request)
      engine.loop.futures.length := does_spawn (Or.inl rfl)
  have bare' : (engine.spawn (.watch run.request)).2.loop.Bare waiter :=
    (Loop.stirred_spawn engine.loop (.start (.watch run.request))).bare bare
  have noting := Loop.grown_watch bare' engine.loop.futures.length
  have started : Steady engine (engine.spawn (.watch run.request)).2 := steady_spawn engine nofun
  have steady := started.trans (steady_grown noting)
  have watching := completing.steady (spawned.grown noting) steady
  have pending' := noting.isPending ((Loop.isPending_iff _ _).mpr
    ⟨bare'.1, (Loop.outcome?_spawn ..).trans ((Loop.isPending_iff _ _).mp pending).2⟩)
  refine watching.inOrder_wait pending' ?_ ?_ ?_
  · intro other found unfinished waits
    rcases steady.before other found unfinished with ⟨old, known, -, waiting⟩ | ⟨-, idle, -⟩
    · exact free other old known (waiting.trans waits)
    · cases idle.symm.trans waits
  · intro belonging member
    simp only [Phase.belongings, List.mem_cons, List.not_mem_nil, or_false] at member
    rcases member with rfl | rfl
    · exact watching.sole
    · exact coherent.sole_new.2.2.1.steady steady
  · refine .debouncing engine.loop.futures.length run rfl ⟨waiter, rfl, noting.bare bare', ?_,
      unasked, does.stirred spawned.sound noting.stirred⟩ (fun struck => ?_) (fun failure failed => ?_)
      fun roused => absurd roused (not_roused_of_pending pending')
    · exact noted_watch (isPending_spawn engine (.watch run.request))
    · exact (noting.stirred.struck_before spawned.sound new.1 struck).elim
        (not_struck_spawn (.watch run.request) coherent.running_ne) id
    · cases ((noting.outcome _).symm.trans failed).symm.trans new.2

theorem Completing.inOrder_startDebounce (env : Environment)
    (completing : engine.Completing touched task outcome run)
    (unasked : engine.Unasked run.request) (delay : Nat) :
    InOrder touched task outcome
      (deliver env (some run) (engine.startDebounce run.request delay (some run))) := by
  unfold startDebounce
  split
  · exact completing.inOrder_afterDebounce env unasked nofun
  · split
    · exact completing.inOrder_afterDebounce env unasked nofun
    · have coherent := completing.coherent
      have bare := Loop.bare_addFuture engine.loop
      have grown := (Loop.grown_addFuture engine.loop).trans (Loop.grown_setTimer bare delay)
      have timing := completing.steady (coherent.grown grown) (steady_grown grown)
      refine timing.inOrder_watch unasked ?_ ?_ ?_
      · exact (Loop.grown_setTimer bare delay).bare bare
      · exact Loop.isPending_addFuture engine.loop
      · exact free_of_fresh coherent (steady_grown grown) (Nat.le_refl _)

end InlineCompletion.Engine
