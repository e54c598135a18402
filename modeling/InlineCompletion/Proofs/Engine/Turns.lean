import InlineCompletion.Proofs.Engine.Completing

/-!
Every move of a run keeps the state coherent: a turn, whichever task it wakes, and whatever happens
between two turns. What is touched only grows, by the completions that are cancelled from outside.
-/

namespace InlineCompletion.Engine

variable {engine : Engine} {touched : Nat → Prop} {running : Option (Nat × Outcome)}
  {task : Nat} {outcome result : Outcome} {phase : Phase} {run : Run}

/-! A completion begins. -/

theorem Coherent.cancelCurrent (coherent : engine.Coherent touched running) (orchestrator : Nat) :
    (engine.cancelCurrent orchestrator).Coherent touched running := by
  have counted := coherent.alike (alike_modifyOrchestrator engine orchestrator fun o =>
    { o with generation := o.generation + 1 })
  unfold Engine.cancelCurrent
  dsimp only
  split
  · exact counted.alike (alike_modifyOrchestrator ..)
  · exact (counted.cancelRequest _).alike (alike_modifyOrchestrator ..)

theorem alike_lookUp (engine : Engine) (env : Environment) (run : Run) (cache : Cache Float) :
    Alike engine (engine.lookUp env run cache).2 := by
  unfold lookUp
  split
  · exact ⟨rfl, rfl, fun known => known, rfl, rfl, rfl, rfl, rfl, fun _ member => member⟩
  · dsimp only
    exact (alike_emit ..).trans (alike_modifyOrchestrator ..)

theorem unasked_addRequest (engine : Engine) (generation : Int) :
    (engine.addRequest { generation }).2.Unasked engine.requests.length :=
  ⟨{ generation }, List.getElem?_concat_length, rfl, rfl⟩

/-- The request that begins is new. -/
theorem completing_beginRequest (coherent : engine.Coherent touched (some (task, outcome)))
    (acts : engine.Acts task phase) (completes : phase.isCompletion = true) {orchestrator : Nat}
    (mine : run.request = (engine.beginRequest orchestrator).1) :
    (engine.beginRequest orchestrator).2.Completing touched task outcome run ∧
      (engine.beginRequest orchestrator).2.Unasked run.request := by
  have stopped := coherent.cancelCurrent orchestrator
  have steady := steady_cancelCurrent coherent orchestrator
  have mine : run.request = (engine.cancelCurrent orchestrator).requests.length := mine
  unfold beginRequest
  dsimp only
  generalize ((engine.cancelCurrent orchestrator).orchestrators[orchestrator]?.map
    (·.generation)).getD 0 = generation
  have added := (stopped.addRequest generation).alike (alike_modifyOrchestrator _ orchestrator
    fun o => { o with current := some (engine.cancelCurrent orchestrator).requests.length })
  refine ⟨⟨added, ⟨phase, acts.steady (steady.to_same rfl), completes⟩, ?_⟩, ?_⟩
  · rw [mine]
    exact stopped.sole_new.1.steady (.of_loop_eq rfl)
  · rw [mine]
    exact unasked_addRequest (engine.cancelCurrent orchestrator) generation

theorem Unasked.alike {new : Engine} {id : Nat} (unasked : engine.Unasked id)
    (alike : Alike engine new) : new.Unasked id := by
  unfold Unasked
  rw [alike.requests]
  exact unasked

/-- The request is answered from the cache, or waits out the debounce. -/
theorem Completing.inOrder_lookUp (env : Environment)
    (completing : engine.Completing touched task outcome run)
    (unasked : engine.Unasked run.request) (orchestrator : Nat) (o : Orchestrator) :
    InOrder touched task outcome (match engine.lookUp env run o.cache with
      | (some entry, engine) =>
        (engine.setStage orchestrator .cacheHit).endRun run (.value (run.insertion entry.completion))
      | (none, engine) => engine.awaitDebounce env run o.settings) := by
  have alike := alike_lookUp engine env run o.cache
  have looked := completing.alike alike
  split
  · next entry new same =>
    rw [same] at looked
    exact (looked.alike (alike_modifyOrchestrator ..)).inOrder_endRun nofun
  · next new same =>
    have unasked' := unasked.alike alike
    rw [same] at looked unasked'
    have debouncing := looked.alike (alike_modifyOrchestrator new run.orchestrator fun o =>
      { o with stage := .debouncing })
    unfold awaitDebounce
    dsimp only
    split
    · exact debouncing.inOrder_endRun nofun
    · exact debouncing.inOrder_startDebounce env (unasked'.alike (alike_modifyOrchestrator ..)) _

theorem inOrder_startCompletion (env : Environment) {orchestrator : Nat} {document : Document}
    {position : Position} (coherent : engine.Coherent touched (some (task, outcome)))
    (acts : engine.Acts task (.start (.complete orchestrator document position))) :
    InOrder touched task outcome (engine.startCompletion env orchestrator document position) := by
  have begun (run : Run) (mine : run.request = (engine.beginRequest orchestrator).1) :=
    completing_beginRequest coherent acts rfl mine
  unfold startCompletion
  dsimp only
  split
  · let nobody : Run :=
      { orchestrator, request := (engine.beginRequest orchestrator).1, document, position
        facts := classify document position 0, key := none }
    exact (begun nobody rfl).1.inOrder_done nofun
  · next o found =>
    have answered (run : Run) (mine : run.request = (engine.beginRequest orchestrator).1) :=
      (begun run mine).1.inOrder_lookUp env (begun run mine).2 orchestrator o
    refine answered _ ?_
    rfl

/-! A completion goes on. -/

/-- A call that was cancelled through the client was aborted, and any other one was wanted. -/
theorem Completing.inOrder_called (env : Environment)
    (completing : engine.Completing touched task outcome run) {call : Nat}
    (sole : engine.Sole task (.call call))
    (stopped : outcome = .cancelled → call ∈ engine.client.abortedCalls ∨ touched task) :
    InOrder touched task outcome
      ((engine.endCall call outcome).2.afterCall env run (engine.endCall call outcome).1) := by
  have dropped : (engine.withClient (·.dropCall call)).Coherent touched (some (task, outcome)) :=
    completing.coherent.dropCall fun other found unfinished others =>
      sole other found unfinished fun same => others (same ▸ rfl)
  have ending := completing.steady dropped (.of_loop_eq rfl)
  refine ending.inOrder_afterCall env fun cancelled => ?_
  have cancelled : (if (outcome = .cancelled && call ∈ engine.client.abortedCalls : Bool) = true then
    .failed callAborted else outcome) = Outcome.cancelled := cancelled
  split at cancelled
  · cases cancelled
  · next unaborted =>
    rcases stopped cancelled with aborted | wanted
    · simp [cancelled, aborted] at unaborted
    · exact wanted

/-- A read that was cancelled by an abort of the stream is told so, and any other one was wanted. -/
theorem Completing.inOrder_resumeReading (env : Environment)
    (completing : engine.Completing touched task outcome run) {stream : Nat}
    (reads : engine.Reads task run stream) (pieces : List Text)
    (stopped : outcome = .cancelled →
      (∃ found, engine.streams[stream]? = some found ∧ found.aborted = true) ∨ touched task) :
    InOrder touched task outcome
      (engine.resumeReading env stream (.completion run pieces) outcome) := by
  have freed : (engine.modifyStream stream fun s => { s with pending := none }).Coherent touched
      (some (task, outcome)) := completing.coherent.setPending none nofun
    fun other found unfinished others =>
      reads.sole other found unfinished fun same => others (same ▸ rfl)
  have reading := completing.steady freed (.of_loop_eq rfl)
  obtain ⟨sole, attached, found, known⟩ := reads
  have reads : (engine.modifyStream stream fun s => { s with pending := none }).Reads task run
      stream := ⟨sole.steady (.of_loop_eq rfl), attached, _, stream_modifyStream _ stream _ known⟩
  have finished := reading.steady (reading.coherent.finishStream stream)
    (steady_finishStream _ stream)
  have ended {result : Outcome} (wanted : collected pieces result = .cancelled → touched task) :=
    reading.inOrder_closeFor env reads wanted
  have ended' (failure : Failure) := finished.inOrder_closeFor env reads.finishStream
    fun cancelled => absurd cancelled (collected_ne_cancelled pieces failure)
  unfold resumeReading endRead
  cases outcome with
  | cancelled =>
    dsimp only
    by_cases aborted : found.aborted = true
    · simp only [known, Option.any_some, aborted, if_true]
      exact ended fun cancelled => absurd cancelled (collected_ne_cancelled pieces streamAborted)
    · simp only [known, Option.any_some, aborted]
      refine ended fun _ => ?_
      rcases stopped rfl with ⟨other, there, aborted'⟩ | wanted
      · cases known.symm.trans there
        exact absurd aborted' aborted
      · exact wanted
  | failed failure => exact ended' failure
  | value v =>
    cases v with
    | drained => exact ended' streamEnded
    | text t => exact reading.inOrder_readFor env reads (pieces ++ [t])
    | nothing | truth b =>
      refine ended fun cancelled => ?_
      unfold collected at cancelled
      split at cancelled <;> cases cancelled

/-! A task goes on. -/

/-- What nothing but a bare future may end never fails. -/
theorem incoming_ne_failed (coherent : engine.Coherent touched none) {activity : Activity Phase}
    (bare : ∀ target, activity.waitingFor = some target → engine.loop.Bare target)
    (failure : Failure) : engine.incoming activity ≠ .failed failure := by
  unfold incoming
  split
  · nofun
  · cases waits : activity.waitingFor with
    | none => nofun
    | some target =>
      cases ended : engine.loop.outcome? target with
      | none => simp [ended]
      | some o =>
        simp only [Option.bind_some, ended, Option.getD_some]
        intro same
        subst same
        exact coherent.sound.calm target failure (bare target waits) ended

/-- A job that is cancelled before it starts ends so. -/
theorem inOrder_start (env : Environment) {job : Job}
    (coherent : engine.Coherent touched (some (task, outcome)))
    (known : engine.loop.Unfinished task { phase := .start job }) (internal : engine.Internal job)
    (calm : ∀ failure, outcome ≠ .failed failure) :
    InOrder touched task outcome (engine.resume env (.start job) outcome) := by
  have acts : engine.Acts task (.start job) := ⟨_, known, rfl⟩
  cases outcome with
  | failed failure => exact absurd rfl (calm failure)
  | cancelled => exact ⟨coherent, acts.ends rfl (fun _ _ _ => nofun) fun _ => rfl⟩
  | value v =>
    cases job with
    | watch request => exact inOrder_startWatch coherent known internal nofun
    | answer call => exact inOrder_startAnswer coherent acts
    | pull stream => exact inOrder_startPull coherent acts
    | complete orchestrator document position => exact inOrder_startCompletion env coherent acts
    | debounce | chat | next | collect | close => exact internal.elim

/-- Each phase goes on from where its wait left it. -/
theorem inOrder_resume (env : Environment) (coherent : engine.Coherent touched none)
    {rest : List Handle} (first : engine.loop.ready = .wake task :: rest)
    {activity : Activity Phase} (known : engine.loop.Unfinished task activity) :
    InOrder touched task (engine.incoming activity)
      (({ engine with loop := engine.loop.wakeFirst rest task activity.phase } : Engine).resume env
        activity.phase (engine.incoming activity)) := by
  have awake := coherent.wake first known
  have tended := tended_wake known first
  have unfinished : (engine.loop.wakeFirst rest task activity.phase).Unfinished task
      { phase := activity.phase } :=
    (Loop.unfinished_wakeFirst rest known activity.phase task _).mpr (Or.inl ⟨rfl, rfl⟩)
  have same := engine.loop.outcome?_wakeFirst rest task activity.phase
  have calm (bare : ∀ target, activity.waitingFor = some target → engine.loop.Bare target) :=
    incoming_ne_failed coherent bare
  have roused : engine.incoming activity = .cancelled → engine.loop.Roused activity :=
    roused_of_incoming
  have fits := coherent.fits task activity known nofun
  generalize engine.loop.wakeFirst rest task activity.phase = loop at *
  generalize engine.incoming activity = outcome at *
  have acts : ({ engine with loop } : Engine).Acts task activity.phase := ⟨_, unfinished, rfl⟩
  have sole (belonging : Belonging) (mine : belonging ∈ activity.phase.belongings) :
      ({ engine with loop } : Engine).Sole task belonging := fun other found known' different member =>
    different (awake.apart other task found _ belonging known' unfinished member mine)
  have completes {run : Run} (runs : activity.phase.run? = some run) :
      ({ engine with loop } : Engine).Completing touched task outcome run := by
    refine ⟨awake, ⟨_, acts, ?_⟩, sole _ (Phase.request_mem_belongings runs)⟩
    simp [Phase.isCompletion, runs]
  cases fits with
  | start job phase internal idle =>
    rw [phase] at unfinished ⊢
    refine inOrder_start env awake unfinished (internal.of_le (Nat.le_refl _)) (calm fun target waits => ?_)
    cases idle.symm.trans waits
  | watching phase sleeps =>
    rw [phase] at acts ⊢
    refine inOrder_watched env awake acts (calm fun target waits => ?_)
    obtain ⟨waiter, waits', bare⟩ := sleeps
    cases waits.symm.trans waits'
    exact bare
  | answering reply phase held =>
    rw [phase] at acts ⊢
    exact inOrder_resumeAnswer awake acts
  | pulling stream phase held =>
    rw [phase] at acts ⊢
    exact inOrder_resumePull awake acts
  | debouncing watch run phase vigil unstruck calm wanted =>
    have runs : activity.phase.run? = some run := by rw [phase]; rfl
    have completing := completes runs
    have mine := sole (.watch watch) (by simp [phase, Phase.belongings])
    rw [phase]
    obtain ⟨-, -, -, -, unasked, does⟩ := vigil
    refine completing.inOrder_debouncing env unasked (tended.does _ watch does) mine ?_ ?_ ?_
    · exact fun ended => unstruck (Or.inr (Or.inl ((same watch).symm.trans ended)))
    · exact fun failure failed => calm failure ((same watch).symm.trans failed)
    · exact fun cancelled => wanted (roused cancelled)
  | unwinding watch timedOut run phase vigil spent early wanted =>
    have runs : activity.phase.run? = some run := by rw [phase]; rfl
    have completing := completes runs
    rw [phase]
    obtain ⟨-, -, -, -, unasked, -⟩ := vigil
    exact completing.inOrder_unwinding env unasked watch early
      fun cancelled => wanted (roused cancelled)
  | calling call run phase waits works attached active stopped wanted =>
    have runs : activity.phase.run? = some run := by rw [phase]; rfl
    have completing := completes runs
    have mine := sole (.call call) (by simp [phase, Phase.belongings])
    rw [phase]
    refine completing.inOrder_called env mine fun cancelled => ?_
    rcases roused cancelled with requested | ⟨target, waits', ended⟩
    · exact Or.inr (wanted requested)
    · cases waits.symm.trans waits'
      exact stopped (Or.inr (Or.inl ended))
  | reading stream read run pieces found phase waits works attached there pending stopped wanted =>
    have runs : activity.phase.run? = some run := by rw [phase]; rfl
    have completing := completes runs
    have mine := sole (.stream stream) (by simp [phase, Phase.belongings])
    rw [phase]
    refine completing.inOrder_resumeReading env ⟨mine, attached, found, there⟩ pieces
      fun cancelled => ?_
    rcases roused cancelled with requested | ⟨target, waits', ended⟩
    · exact Or.inr (wanted requested)
    · cases waits.symm.trans waits'
      exact (stopped (Or.inr (Or.inl ended))).imp_left fun aborted => ⟨found, there, aborted⟩
  | closing stream run reading found phase held attached there stopped wanted =>
    have runs : activity.phase.run? = some run := by rw [phase]; rfl
    have completing := completes runs
    have mine := sole (.stream stream) (by simp [phase, Phase.belongings])
    rw [phase]
    have farewell := resumeFarewell_spec { engine with loop } stream outcome
    exact completing.inOrder_deliverFarewell env ⟨mine, attached, found, there⟩ stopped
      (alike_resumeFarewell ..) farewell.1 fun cancelled => wanted (roused (farewell.2 cancelled))

/-! One turn. -/

/-- Either nothing can run, or a bare future is released, or a task runs. -/
inductive Turned (env : Environment) (engine : Engine) : Engine → Prop where
  | idle (rests : engine.interrupted.isSome = true ∨ engine.loop.ready = []) : Turned env engine engine
  | released (waiter : Nat) (rest : List Handle) (going : engine.interrupted = none)
    (first : engine.loop.ready = .release waiter :: rest) :
    Turned env engine { engine with
      loop := ({ engine.loop with ready := rest } : Loop Phase).settle waiter (.value .nothing) }
  | woken (task : Nat) (rest : List Handle) (activity : Activity Phase) (awake : Engine)
    (going : engine.interrupted = none) (first : engine.loop.ready = .wake task :: rest)
    (known : engine.loop.Unfinished task activity)
    (same : awake = { engine with loop := engine.loop.wakeFirst rest task activity.phase }) :
    Turned env engine
      (conclude task (awake.resume env activity.phase (engine.incoming activity)))

theorem turned_of_sound (env : Environment) (sound : engine.loop.Sound none) :
    Turned env engine ((engine.turn? env).getD engine) := by
  unfold turn? Loop.next?
  split
  · next stopped => exact .idle (Or.inl stopped)
  · next going =>
    have going : engine.interrupted = none := by simpa using going
    cases first : engine.loop.ready with
    | nil => exact .idle (Or.inr first)
    | cons handle rest =>
      cases handle with
      | release waiter => exact .released waiter rest going first
      | wake task =>
        obtain ⟨activity, known, -, -⟩ := Loop.Sound.wake sound first
        obtain ⟨future, found, acts⟩ : ∃ future, engine.loop.futures[task]? = some future ∧
            future.activity = some activity := Option.bind_eq_some_iff.mp known.1
        have unsettled : future.outcome = none := by simpa [Loop.outcome?, found] using known.2
        obtain ⟨outcome, watchers, activity'⟩ := future
        cases acts
        cases unsettled
        have ran : ({ engine with loop := { engine.loop with ready := rest } } : Engine).runTask env task =
            conclude task (({ engine with
              loop := engine.loop.wakeFirst rest task activity.phase } : Engine).resume env
                activity.phase (engine.incoming activity)) := by
          unfold runTask
          simp only [found]
          rfl
        show Turned env engine
          (({ engine with loop := { engine.loop with ready := rest } } : Engine).runTask env task)
        rw [ran]
        exact .woken task rest activity _ going first known rfl

theorem turned_turn (env : Environment) (coherent : engine.Coherent touched none) :
    Turned env engine ((engine.turn? env).getD engine) :=
  turned_of_sound env coherent.sound

theorem Coherent.turn (env : Environment) (coherent : engine.Coherent touched none) :
    ((engine.turn? env).getD engine).Coherent touched none := by
  have turned := turned_turn env coherent
  generalize (engine.turn? env).getD engine = next at *
  cases turned with
  | idle => exact coherent
  | released waiter rest going first => exact coherent.release first
  | woken task rest activity awake going first known same =>
    subst same
    exact coherent_conclude (inOrder_resume env coherent first known)

/-! A completion is cancelled from outside. -/

/-- The chain of waits of a completion ends with itself, its call or its read. -/
theorem chained_of_completion (coherent : engine.Coherent touched none) {activity : Activity Phase}
    (known : engine.loop.Unfinished task activity) (completes : activity.phase.isCompletion = true)
    {last : Nat} (chained : engine.loop.Chained task last) :
    last = task ∨ activity.waitingFor = some last ∧
      ∃ errand, engine.Does errand last ∧ ∀ request, errand ≠ .watch request := by
  obtain ⟨reached, unfinished⟩ := chained
  have leads {target : Nat} (bare : engine.loop.Bare target) : ¬engine.loop.Reaches target last := by
    intro either
    rcases either with _ | ⟨unfinished', _, _⟩
    · obtain ⟨found, there, -⟩ := unfinished
      cases bare.2.symm.trans there
    · cases bare.2.symm.trans unfinished'.1
  cases reached with
  | here => exact Or.inl rfl
  | there known' waits later =>
    cases known.unique known'
    have held (held : engine.Held activity) : False := by
      obtain ⟨waiter, waits', bare, -⟩ := held
      cases waits.symm.trans waits'
      exact leads bare later
    have vigil {run : Run} {watch : Nat} (vigil : engine.Vigil run watch activity) : False := by
      obtain ⟨waiter, waits', bare, -⟩ := vigil
      cases waits.symm.trans waits'
      exact leads bare later
    have child {target : Nat} {errand : Errand} (does : engine.Does errand target)
        (waits' : activity.waitingFor = some target) : last = target := by
      cases waits.symm.trans waits'
      exact (Does.leaf coherent does).chained ⟨later, unfinished⟩
    cases coherent.fits task activity known nofun with
    | start _ _ _ idle => cases idle.symm.trans waits
    | watching phase | answering _ phase | pulling _ phase =>
      rw [phase] at completes
      cases completes
    | debouncing _ _ _ waiting | unwinding _ _ _ _ waiting => exact (vigil waiting).elim
    | closing _ _ _ _ _ waiting => exact (held waiting).elim
    | calling call _ _ waits' works =>
      obtain rfl := child works waits'
      exact Or.inr ⟨waits', _, works, nofun⟩
    | reading _ read _ _ _ _ waits' works =>
      obtain rfl := child works waits'
      exact Or.inr ⟨waits', _, works, nofun⟩

theorem Coherent.cancelCompletion (coherent : engine.Coherent touched none) (task : Nat)
    (wanted : touched task) : (engine.cancelCompletion task).Coherent touched none := by
  unfold Engine.cancelCompletion
  split
  case isFalse => exact coherent
  next completes =>
  obtain ⟨activity, known, completes⟩ : ∃ activity, engine.loop.Unfinished task activity ∧
      activity.phase.isCompletion = true := by
    unfold phaseOf at completes
    split at completes
    · cases completes
    · next going =>
      cases found : engine.loop.activity? task with
      | none => simp [found] at completes
      | some activity =>
        refine ⟨activity, ⟨found, ?_⟩, by simpa [found] using completes⟩
        exact Decidable.not_not.mp fun ended => going ((Loop.isDone_iff _ _).mpr ended)
  refine coherent.cancel known.1 fun other found unfinished others => ?_
  have fits := coherent.fits other found unfinished others
  have itself {errand : Errand} : ¬engine.Does errand task := by
    intro does
    have false := (does.2 activity known).isCompletion_eq_false
    rw [completes] at false
    cases false
  have mine {target : Nat} (waits : found.waitingFor = some target)
      (waits' : activity.waitingFor = some target) : touched other := by
    rw [coherent.sound.alone other task found activity target unfinished known waits waits']
    exact wanted
  refine ⟨fun struck works => ?_, fun watch owner phase struck => ?_, fun call owner phase struck => ?_,
    fun stream consumer read next phase waits there struck => ?_⟩
  · rcases chained_of_completion coherent known completes struck with rfl | ⟨-, errand, does, -⟩
    · exact wanted
    · cases (does.2 found unfinished).isCompletion_eq_false.symm.trans works
  · have chained := struck
    obtain ⟨-, next, unfinished'⟩ := struck
    obtain ⟨run, -, vigil, -⟩ := fits.of_debouncing phase
    rcases chained_of_completion coherent known completes chained with rfl | ⟨-, errand, does, other⟩
    · exact itself vigil.does
    · obtain ⟨request, same⟩ :=
        Doing.of_watch (vigil.does.2 next unfinished') (does.2 next unfinished')
      exact other request same
  · obtain ⟨-, -, waits, works, -⟩ := fits.of_calling phase
    rcases chained_of_completion coherent known completes struck with rfl | ⟨waits', -⟩
    · exact absurd works itself
    · exact Or.inr (mine waits waits')
  · obtain ⟨-, -, read', -, -, waits'', works, -⟩ := fits.of_reading phase
    cases waits.symm.trans waits''
    rcases chained_of_completion coherent known completes struck with rfl | ⟨waits', -⟩
    · exact absurd works itself
    · exact Or.inr (mine waits waits')

/-! A whole run. -/

theorem Fits.mono {more : Nat → Prop} {activity : Activity Phase}
    (fits : engine.Fits touched running task activity) (weaker : touched task → more task) :
    engine.Fits more running task activity := by
  cases fits with
  | start job phase internal idle wanted =>
    exact .start job phase internal idle fun completes requested => weaker (wanted completes requested)
  | watching phase sleeps => exact .watching phase sleeps
  | answering reply phase held => exact .answering reply phase held
  | pulling stream phase held => exact .pulling stream phase held
  | debouncing watch run phase vigil unstruck calm wanted =>
    exact .debouncing watch run phase vigil unstruck calm fun roused => weaker (wanted roused)
  | unwinding watch timedOut run phase vigil spent early wanted =>
    exact .unwinding watch timedOut run phase vigil spent (fun soon => weaker (early soon))
      fun roused => weaker (wanted roused)
  | calling call run phase waits works attached active stopped wanted =>
    exact .calling call run phase waits works attached active
      (fun struck => (stopped struck).imp_right weaker) fun requested => weaker (wanted requested)
  | reading stream read run pieces found phase waits works attached known pending stopped wanted =>
    exact .reading stream read run pieces found phase waits works attached known pending
      (fun struck => (stopped struck).imp_right weaker) fun requested => weaker (wanted requested)
  | closing stream run outcome found phase held attached known stopped wanted =>
    exact .closing stream run outcome found phase held attached known
      (fun cancelled => weaker (stopped cancelled)) fun roused => weaker (wanted roused)

theorem Coherent.mono {more : Nat → Prop} (coherent : engine.Coherent touched running)
    (weaker : ∀ id, touched id → more id) : engine.Coherent more running where
  sound := coherent.sound
  gate := coherent.gate
  open_gate := coherent.open_gate
  requests := coherent.requests
  streams := coherent.streams
  activeStreams := coherent.activeStreams
  calls := coherent.calls
  apart := coherent.apart
  fits := fun task activity unfinished others =>
    (coherent.fits task activity unfinished others).mono (weaker task)

theorem Coherent.apply (env : Environment) (coherent : engine.Coherent touched none) (move : Move)
    (wanted : ∀ task, move = .cancelTask task → touched task) :
    (engine.apply env move).Coherent touched none := by
  cases move with
  | turn => exact coherent.turn env
  | fireTimers => exact coherent.grown (Loop.grown_fireTimers coherent.sound.timed)
  | pass nanoseconds => exact coherent.grown (Loop.grown_advance engine.loop nanoseconds)
  | request orchestrator document position => exact coherent.spawn trivial
  | cancel orchestrator => exact coherent.cancelCurrent orchestrator
  | selectModel orchestrator model =>
    exact (coherent.alike (alike_modifyOrchestrator ..)).alike (alike_modifyOrchestrator ..)
  | clearCache orchestrator notify =>
    have cleared := coherent.alike (alike_modifyOrchestrator engine orchestrator fun o =>
      { o with cache := o.cache.clear })
    unfold Engine.apply clearCacheFor
    dsimp only
    split
    · exact cleared.alike (alike_emit ..)
    · exact cleared
  | cancelTask task => exact coherent.cancelCompletion task (wanted task rfl)
  | abort => exact coherent.abortClient
  | openGate => exact coherent.openGate
  | closeGate => exact coherent.closeGate
  | proceed waiter => exact coherent.proceed waiter
  | script replies failure ignoresCancel heedless =>
    exact coherent.alike ⟨rfl, rfl, fun known => known, rfl, rfl, rfl, rfl, rfl, fun _ member => member⟩
  | rescript stream actions farewell closable =>
    exact coherent.alike (alike_modifySource engine stream fun source =>
      { source with actions, farewell, closable })

theorem Coherent.play (env : Environment) (coherent : engine.Coherent touched none)
    (moves : List Move) (wanted : ∀ task, .cancelTask task ∈ moves → touched task) :
    (engine.play env moves).Coherent touched none := by
  induction moves generalizing engine with
  | nil => exact coherent
  | cons move rest ih =>
    refine ih (coherent.apply env move fun task same => wanted task ?_) fun task member => ?_
    · exact same ▸ List.mem_cons_self ..
    · exact wanted task (List.mem_cons_of_mem _ member)

theorem play_append (engine : Engine) (env : Environment) (moves more : List Move) :
    engine.play env (moves ++ more) = (engine.play env moves).play env more :=
  List.foldl_append

/-- What every move keeps, a run keeps. -/
theorem Coherent.play_invariant (env : Environment) (coherent : engine.Coherent touched none)
    (moves : List Move) (wanted : ∀ task, .cancelTask task ∈ moves → touched task)
    {holds : Engine → Prop} (step : ∀ (engine : Engine) (move : Move),
      engine.Coherent touched none → holds engine → holds (engine.apply env move))
    (start : holds engine) : holds (engine.play env moves) := by
  induction moves generalizing engine with
  | nil => exact start
  | cons move rest ih =>
    have coherent' := coherent.apply env move fun task same =>
      wanted task (same ▸ List.mem_cons_self ..)
    exact ih coherent' (fun task member => wanted task (List.mem_cons_of_mem _ member))
      (step engine move coherent start)

theorem coherent_opening (client : Client) (seats : List (Settings × Cache Float)) :
    (opening client seats).Coherent touched none := by
  have nobody (task : Nat) (activity : Activity Phase) :
      ¬(opening client seats).loop.Unfinished task activity := fun unfinished => nomatch unfinished.1
  exact
    { sound := Loop.sound_empty
      gate := nofun
      open_gate := fun _ => rfl
      requests := nofun
      streams := nofun
      activeStreams := nofun
      calls := nofun
      apart := fun first _ activity _ _ unfinished => absurd unfinished (nobody first activity)
      fits := fun task activity unfinished => absurd unfinished (nobody task activity) }

/-- Everything that a run comes to is coherent; what was wanted cancelled is among its moves. -/
theorem coherent_play (env : Environment) (client : Client) (seats : List (Settings × Cache Float))
    (moves : List Move) :
    (reached env client seats moves).Coherent (fun task => .cancelTask task ∈ moves) none :=
  (coherent_opening client seats).play env moves fun _ member => member

/-! A small run, for trying out what is claimed of all. -/

/-- A page with nothing on it. -/
def blank : Document := ⟨[], [], [], []⟩

/-- A model is asked at once, and for the whole answer. -/
def whole : Settings := { model := "a", stream := false, debounceMs := 0 }

/-- The first completion on the blank page. -/
def firstRun : Run where
  orchestrator := 0
  request := 0
  document := blank
  position := ⟨0, 0⟩
  facts := classify blank ⟨0, 0⟩ defaultScanWindow
  key := some "::false:0:0::"

/-- A run of one orchestrator with a new cache, whose client answers everything with the same reply. -/
abbrev solo (settings : Settings) (moves : List Move) : Engine :=
  reached ⟨fun _ => [], fun _ => 0⟩ { replies := [⟨["x"], none⟩] } [(settings, ⟨1, 0, []⟩)] moves

end InlineCompletion.Engine
