import InlineCompletion.Proofs.Engine.Succession
import InlineCompletion.Proofs.Engine.Turns

/-!
All that one turn can do. Either the task of a completion goes on by its deeds, or a completion
begins, or a task goes on that works for another one, or a bare future is released.
-/

namespace InlineCompletion.Engine

variable {engine old new : Engine} {env : Environment} {run : Run} {touched : Nat → Prop}
  {running : Option (Nat × Outcome)} {task : Nat} {phase : Phase} {outcome : Outcome}

/-- How a task goes on from its phase. -/
inductive Resumed (env : Environment) (old : Engine) (phase : Phase) (outcome : Outcome)
    (step : Step) : Prop where
  | plays (run : Run) (works : phase.run? = some run) (played : Played env run old step)
  | begins (orchestrator : Nat) (o : Orchestrator) (run : Run)
    (starts : phase.starts? = some orchestrator) (wanted : outcome ≠ .cancelled)
    (found : old.orchestrators[orchestrator]? = some o) (mine : run.orchestrator = orchestrator)
    (newest : run.request = old.requests.length)
    (succeeds : Succeeds orchestrator o old (old.beginRequest orchestrator).2)
    (opened : Opened env run (old.beginRequest orchestrator).2 step)
    (entered : ∃ document position, phase = .start (.complete orchestrator document position) ∧
      run = Run.entering env o.settings orchestrator old.requests.length document position)
  | absent (orchestrator : Nat) (starts : phase.starts? = some orchestrator)
    (wanted : outcome ≠ .cancelled) (nowhere : old.orchestrators[orchestrator]? = none)
    (same : step = ((old.beginRequest orchestrator).2, .done (.value .nothing)))
  | assists (idle : phase.run? = none) (unstarted : phase.starts? ≠ none → outcome = .cancelled)
    (assists : Assists old step)

theorem resumed_start (env : Environment) {job : Job} (coherent : engine.Coherent touched running)
    (internal : engine.Internal job) (calm : ∀ failure, outcome ≠ .failed failure) :
    Resumed env engine (.start job) outcome (engine.resume env (.start job) outcome) := by
  cases outcome with
  | failed failure => exact absurd rfl (calm failure)
  | cancelled => exact .assists rfl (fun _ => rfl) (.of_done (.refl engine) _)
  | value v =>
    cases job with
    | watch request => exact .assists rfl (absurd rfl) (assists_startWatch engine request)
    | answer call => exact .assists rfl (absurd rfl) (assists_startAnswer engine call)
    | pull stream => exact .assists rfl (absurd rfl) (assists_startPull engine stream)
    | debounce | chat | next | collect | close => exact internal.elim
    | complete orchestrator document position =>
      cases found : engine.orchestrators[orchestrator]? with
      | none =>
        refine .absent orchestrator rfl nofun found ?_
        have retires := retires_cancelCurrent coherent orchestrator
        have nowhere : (engine.beginRequest orchestrator).2.orchestrators[orchestrator]? = none := by
          show ((engine.cancelCurrent orchestrator).orchestrators.modify orchestrator _)[_]? = none
          simp [retires.orchestrators, found]
        show engine.startCompletion env orchestrator document position = _
        unfold startCompletion
        simp only [nowhere]
      | some o =>
        obtain ⟨newest, succeeds⟩ := succeeds_beginRequest coherent found
        have found' : (engine.beginRequest orchestrator).2.orchestrators[orchestrator]? =
            some { o.retired with current := some engine.requests.length } := by
          simp [succeeds.orchestrators, found]
        have opened := opened_startCompletion env found' document position
          (succeeds.isLive found rfl newest)
        rw [newest] at opened
        exact .begins orchestrator o _ rfl nofun found rfl rfl succeeds opened
          ⟨document, position, rfl, rfl⟩

/-- The one inversion of a turn: whatever a task does follows from it. -/
theorem resumed_resume (env : Environment) (coherent : engine.Coherent touched none)
    {rest : List Handle} (first : engine.loop.ready = .wake task :: rest)
    {activity : Activity Phase} (known : engine.loop.Unfinished task activity) :
    Resumed env { engine with loop := engine.loop.wakeFirst rest task activity.phase }
      activity.phase (engine.incoming activity)
      (({ engine with loop := engine.loop.wakeFirst rest task activity.phase } : Engine).resume env
        activity.phase (engine.incoming activity)) := by
  have awake := coherent.wake first known
  have calm (bare : ∀ target, activity.waitingFor = some target → engine.loop.Bare target) :=
    incoming_ne_failed coherent bare
  have same := engine.loop.outcome?_wakeFirst rest task activity.phase
  have fits := coherent.fits task activity known nofun
  generalize engine.loop.wakeFirst rest task activity.phase = loop at *
  generalize engine.incoming activity = outcome at *
  cases fits with
  | start job phase internal idle =>
    rw [phase]
    refine resumed_start env awake (internal.of_le (Nat.le_refl _)) (calm fun target waits => ?_)
    cases idle.symm.trans waits
  | watching phase =>
    rw [phase]
    refine .assists rfl (absurd rfl) ?_
    cases outcome <;> exact .of_done (.refl _) _
  | answering reply phase =>
    rw [phase]
    exact .assists rfl (absurd rfl) (assists_resumeAnswer _ reply outcome)
  | pulling stream phase =>
    rw [phase]
    exact .assists rfl (absurd rfl) (assists_resumePull _ stream outcome)
  | debouncing watch run phase _ _ calm' =>
    rw [phase]
    refine .plays run rfl (played_resume env rfl (fun other owner same' failure failed => ?_) outcome)
    cases same'
    exact calm' failure ((same watch).symm.trans failed)
  | unwinding _ _ run phase | calling _ run phase | reading _ _ run _ _ phase
  | closing _ run _ _ phase =>
    rw [phase]
    exact .plays run rfl (played_resume env rfl (fun _ _ other => by cases other) outcome)

/-! Who works on what. -/

theorem woken?_eq_some_iff : engine.woken? = some task ↔
    engine.interrupted = none ∧ ∃ rest, engine.loop.ready = .wake task :: rest := by
  unfold woken?
  split
  · next stopped => simp [Option.isSome_iff_ne_none.mp stopped]
  · next going =>
    have going := Option.not_isSome_iff_eq_none.mp going
    split
    · next other rest first => simp [going, first]
    · next odd => exact ⟨nofun, fun ⟨_, rest, first⟩ => (odd task rest first).elim⟩

theorem phaseOf_eq_some_iff {task : Nat} {phase : Phase} : engine.phaseOf task = some phase ↔
    ∃ activity, engine.loop.Unfinished task activity ∧ activity.phase = phase := by
  unfold phaseOf Loop.Unfinished
  split
  · next ended =>
    rw [Loop.isDone_iff] at ended
    simp [ended]
  · next going =>
    rw [Loop.isDone_iff, ne_eq, Decidable.not_not] at going
    simp [going]

theorem runOf_eq_some_iff {task : Nat} {run : Run} : engine.runOf task = some run ↔
    ∃ activity, engine.loop.Unfinished task activity ∧ activity.phase.run? = some run := by
  unfold runOf
  simp only [Option.bind_eq_some_iff, phaseOf_eq_some_iff]
  constructor
  · intro given
    obtain ⟨_, ⟨activity, known, rfl⟩, works⟩ := given
    exact ⟨activity, known, works⟩
  · intro given
    obtain ⟨activity, known, works⟩ := given
    exact ⟨_, ⟨activity, known, rfl⟩, works⟩

theorem runOf_eq_of_iff {task other : Nat} (same : ∀ run,
    (∃ activity, new.loop.Unfinished task activity ∧ activity.phase.run? = some run) ↔
      ∃ activity, old.loop.Unfinished other activity ∧ activity.phase.run? = some run) :
    new.runOf task = old.runOf other := by
  refine Option.ext fun run => ?_
  exact runOf_eq_some_iff.trans ((same run).trans runOf_eq_some_iff.symm)

/-- New tasks have no completion to work on. -/
theorem Steady.runOf (steady : Steady old new) (task : Nat) : new.runOf task = old.runOf task := by
  refine runOf_eq_of_iff fun run => ⟨?_, ?_⟩
  · intro given
    obtain ⟨activity, known, works⟩ := given
    rcases steady.before task activity known with ⟨found, known', phase, -⟩ | ⟨-, -, job, start, -⟩
    · exact ⟨found, known', phase ▸ works⟩
    · rw [start] at works
      cases works
  · intro given
    obtain ⟨activity, known, works⟩ := given
    obtain ⟨found, known', phase, -⟩ := steady.after task activity known
    exact ⟨found, known', phase ▸ works⟩

theorem runOf_wakeFirst {activity : Activity Phase} (known : engine.loop.Unfinished task activity)
    (rest : List Handle) (other : Nat) :
    ({ engine with loop := engine.loop.wakeFirst rest task activity.phase } : Engine).runOf other =
      engine.runOf other := by
  refine runOf_eq_of_iff fun run => ⟨?_, ?_⟩
  · intro given
    obtain ⟨found, unfinished, works⟩ := given
    rcases (Loop.unfinished_wakeFirst rest known activity.phase other found).mp unfinished with
      ⟨rfl, rfl⟩ | ⟨-, unfinished⟩
    · exact ⟨activity, known, works⟩
    · exact ⟨found, unfinished, works⟩
  · intro given
    obtain ⟨found, unfinished, works⟩ := given
    by_cases same : other = task
    · subst same
      cases known.unique unfinished
      exact ⟨_, (Loop.unfinished_wakeFirst rest known activity.phase other _).mpr
        (Or.inl ⟨rfl, rfl⟩), works⟩
    · exact ⟨found, (Loop.unfinished_wakeFirst rest known activity.phase other found).mpr
        (Or.inr ⟨same, unfinished⟩), works⟩

/-- What a task leaves behind is its own: the rest of the engine stays. -/
theorem conclude_frame (task : Nat) (step : Step) :
    (conclude task step).orchestrators = step.1.orchestrators ∧
      (conclude task step).requests = step.1.requests ∧
      (conclude task step).events = step.1.events := by
  obtain ⟨engine, verdict⟩ := step
  cases verdict with
  | wait target phase => exact ⟨rfl, rfl, rfl⟩
  | done result =>
    unfold conclude
    dsimp only
    split
    · split <;> exact ⟨rfl, rfl, rfl⟩
    · exact ⟨rfl, rfl, rfl⟩

theorem loop_conclude_done (task : Nat) (engine : Engine) (result : Outcome) :
    (conclude task (engine, .done result)).loop = engine.loop.settle task result := by
  unfold conclude
  dsimp only
  split
  · split <;> rfl
  · rfl

theorem runOf_conclude_wait {activity : Activity Phase}
    (known : engine.loop.Unfinished task activity) (target : Nat) (phase : Phase) (other : Nat) :
    (conclude task (engine, .wait target phase)).runOf other =
      if other = task then phase.run? else engine.runOf other := by
  have parked := Loop.unfinished_park known phase target other
  split
  · next same =>
    refine Option.ext fun run => runOf_eq_some_iff.trans ⟨?_, fun works => ?_⟩
    · intro given
      obtain ⟨found, unfinished, works⟩ := given
      rcases (parked found).mp unfinished with ⟨-, rfl⟩ | ⟨different, -⟩
      · exact works
      · exact absurd same different
    · exact ⟨_, (parked _).mpr (Or.inl ⟨same, rfl⟩), works⟩
  · next different =>
    refine runOf_eq_of_iff fun run => ⟨?_, ?_⟩
    · intro given
      obtain ⟨found, unfinished, works⟩ := given
      rcases (parked found).mp unfinished with ⟨same, -⟩ | ⟨-, unfinished'⟩
      · exact absurd same different
      · exact ⟨found, unfinished', works⟩
    · intro given
      obtain ⟨found, unfinished, works⟩ := given
      exact ⟨found, (parked found).mpr (Or.inr ⟨different, unfinished⟩), works⟩

theorem runOf_conclude_done {activity : Activity Phase}
    (known : engine.loop.Unfinished task activity) (result : Outcome) (other : Nat) :
    (conclude task (engine, .done result)).runOf other =
      if other = task then none else engine.runOf other := by
  have finished (found : Activity Phase) :
      (conclude task (engine, .done result)).loop.Unfinished other found ↔
        other ≠ task ∧ engine.loop.Unfinished other found := by
    rw [loop_conclude_done]
    exact Loop.unfinished_finish known result other found
  split
  · next same =>
    refine Option.eq_none_iff_forall_ne_some.mpr fun run works => ?_
    obtain ⟨found, unfinished, -⟩ := runOf_eq_some_iff.mp works
    exact ((finished found).mp unfinished).1 same
  · next different =>
    refine runOf_eq_of_iff fun run => ⟨?_, ?_⟩
    · intro given
      obtain ⟨found, unfinished, works⟩ := given
      exact ⟨found, ((finished found).mp unfinished).2, works⟩
    · intro given
      obtain ⟨found, unfinished, works⟩ := given
      exact ⟨found, (finished found).mpr ⟨different, unfinished⟩, works⟩

/-! Those who do not run. -/

theorem Played.steady {step : Step} (played : Played env run old step) : Steady old step.1 := by
  cases played with
  | waits new target phase deeds => exact Deeds.steady deeds
  | ends new result deeds => exact (Deeds.steady deeds).trans (steady_endRun ..)

theorem Resumed.steady {step : Step} (resumed : Resumed env old phase outcome step)
    (coherent : old.Coherent touched running) : Steady old step.1 := by
  cases resumed with
  | plays run works played => exact played.steady
  | begins orchestrator o run starts wanted found mine newest succeeds opened =>
    exact succeeds.steady.trans (opened.played (succeeds.isLive found mine newest)).steady
  | absent orchestrator starts wanted nowhere same =>
    rw [same]
    exact (beginRequest_of_none coherent nowhere).1
  | assists idle unstarted assists => exact assists.aside.steady

/-- Parking or ending one task leaves the others as they are. -/
theorem unfinished_conclude {step : Step} {activity : Activity Phase}
    (known : step.1.loop.Unfinished task activity) {other : Nat} (unlike : other ≠ task)
    (found : Activity Phase) : (conclude task step).loop.Unfinished other found ↔
      step.1.loop.Unfinished other found := by
  obtain ⟨engine, verdict⟩ := step
  cases verdict with
  | wait target phase =>
    have parked := Loop.unfinished_park known phase target other found
    exact ⟨fun unfinished => ((parked.mp unfinished).resolve_left fun same => unlike same.1).2,
      fun unfinished => parked.mpr (Or.inr ⟨unlike, unfinished⟩)⟩
  | done result =>
    rw [loop_conclude_done]
    have finished := Loop.unfinished_finish known result other found
    exact ⟨fun unfinished => (finished.mp unfinished).2, fun unfinished => finished.mpr ⟨unlike, unfinished⟩⟩

theorem unfinished_release (coherent : engine.Coherent touched none) {waiter : Nat} {rest : List Handle}
    (first : engine.loop.ready = .release waiter :: rest) (task : Nat) (activity : Activity Phase) :
    (({ engine.loop with ready := rest } : Loop Phase).settle waiter (.value .nothing)).Unfinished task
      activity ↔ engine.loop.Unfinished task activity := by
  have bare : ({ engine.loop with ready := rest } : Loop Phase).Bare waiter :=
    coherent.sound.readyReleases waiter (first ▸ List.mem_cons_self ..)
  exact Loop.unfinished_settle_of_bare bare (.value .nothing) task activity

/-- A task that does not run keeps its phase and what it waits for. -/
theorem Turned.unfinished (turned : Turned env engine new) (coherent : engine.Coherent touched none)
    {activity : Activity Phase} (known : engine.loop.Unfinished task activity)
    (unwoken : engine.woken? ≠ some task) : ∃ found, new.loop.Unfinished task found ∧
      found.phase = activity.phase ∧ found.waitingFor = activity.waitingFor := by
  cases turned with
  | idle => exact ⟨activity, known, rfl, rfl⟩
  | released waiter rest going first =>
    exact ⟨activity, (unfinished_release coherent first task activity).mpr known, rfl, rfl⟩
  | woken other rest activity' awake going first known' same =>
    subst same
    have unlike : task ≠ other := by
      intro same
      subst same
      exact unwoken (by simp [woken?, going, first])
    have woken := coherent.wake first known'
    have steady := (resumed_resume env coherent first known').steady woken
    obtain ⟨runner, runs, -⟩ := woken.sound.runs other rfl
    obtain ⟨_, runs', -⟩ := steady.after other runner runs
    have waits := (Loop.unfinished_wakeFirst rest known' activity'.phase task activity).mpr
      (Or.inr ⟨unlike, known⟩)
    obtain ⟨found, unfinished, phase, waiting⟩ := steady.after task activity waits
    exact ⟨found, (unfinished_conclude runs' unlike found).mpr unfinished, phase, waiting⟩

/-- What has ended stays so. -/
theorem ended_settle {loop : Loop Phase} (id : Nat) (o : Outcome) {other : Nat} {outcome : Outcome}
    (ended : loop.outcome? other = some outcome) : (loop.settle id o).outcome? other = some outcome := by
  rw [Loop.outcome?_settle, if_neg]
  · exact ended
  · intro given
    obtain ⟨rfl, pending⟩ := given
    cases ended.symm.trans ((Loop.isPending_iff _ _).mp pending).2

theorem ended_conclude (task : Nat) (step : Step) {id : Nat} {outcome : Outcome}
    (ended : step.1.loop.outcome? id = some outcome) :
    (conclude task step).loop.outcome? id = some outcome := by
  obtain ⟨engine, verdict⟩ := step
  cases verdict with
  | wait target phase => exact (Loop.outcome?_park task phase target id).trans ended
  | done result =>
    rw [loop_conclude_done]
    exact ended_settle task result ended

/-- What has ended stays so in a turn if it does while a task runs. -/
theorem Turned.ended_of_steady (turned : Turned env engine new)
    (steady : ∀ (task : Nat) (rest : List Handle) (activity : Activity Phase),
      engine.loop.ready = .wake task :: rest → engine.loop.Unfinished task activity →
      Steady { engine with loop := engine.loop.wakeFirst rest task activity.phase }
        (({ engine with loop := engine.loop.wakeFirst rest task activity.phase } : Engine).resume env
          activity.phase (engine.incoming activity)).1)
    {id : Nat} {outcome : Outcome} (ended : engine.loop.outcome? id = some outcome) :
    new.loop.outcome? id = some outcome := by
  cases turned with
  | idle => exact ended
  | released waiter rest =>
    have ended : ({ engine.loop with ready := rest } : Loop Phase).outcome? id = some outcome := ended
    exact ended_settle waiter _ ended
  | woken task rest activity awake going first known same =>
    subst same
    refine ended_conclude task _ ((steady task rest activity first known).ended id outcome ?_)
    exact (Loop.outcome?_wakeFirst ..).trans ended

theorem Turned.ended (turned : Turned env engine new) (coherent : engine.Coherent touched none)
    {id : Nat} {outcome : Outcome} (ended : engine.loop.outcome? id = some outcome) :
    new.loop.outcome? id = some outcome :=
  turned.ended_of_steady (fun _ _ _ first known =>
    (resumed_resume env coherent first known).steady (coherent.wake first known)) ended

/-! One move. -/

/-- What a move comes to. Most of them only prepare what the loop will do. -/
inductive Moved (env : Environment) (engine : Engine) : Move → Engine → Prop where
  | turned (next : Engine) (turned : Turned env engine next) : Moved env engine .turn next
  | requested (orchestrator : Nat) (document : Document) (position : Position) :
    Moved env engine (.request orchestrator document position)
      (engine.spawn (.complete orchestrator document position)).2
  | cancelled (orchestrator : Nat) (next : Engine) (retires : Retires orchestrator engine next) :
    Moved env engine (.cancel orchestrator) next
  | selected (orchestrator : Nat) (model : Text) :
    Moved env engine (.selectModel orchestrator model) (engine.selectModel orchestrator model)
  | cleared (orchestrator : Nat) (notify : Bool) :
    Moved env engine (.clearCache orchestrator notify) (engine.clearCacheFor orchestrator notify)
  | aside (move : Move) (next : Engine) (silent : Silent engine next) (waits : move ≠ .turn)
    (keeps : ∀ orchestrator, move ≠ .cancel orchestrator) : Moved env engine move next

theorem moved_apply (env : Environment) (coherent : engine.Coherent touched none) (move : Move) :
    Moved env engine move (engine.apply env move) := by
  have loop {f : Loop Phase → Loop Phase} (steady : Steady engine (engine.withLoop f)) :
      Silent engine (engine.withLoop f) := aside_withLoop steady
  cases move with
  | turn => exact .turned _ (turned_turn env coherent)
  | request orchestrator document position => exact .requested orchestrator document position
  | cancel orchestrator => exact .cancelled orchestrator _ (retires_cancelCurrent coherent orchestrator)
  | selectModel orchestrator model => exact .selected orchestrator model
  | clearCache orchestrator notify => exact .cleared orchestrator notify
  | fireTimers =>
    have fired := Loop.grown_fireTimers coherent.sound.timed
    exact .aside _ _ (loop (steady_grown fired)) nofun nofun
  | pass nanoseconds =>
    have passed : Silent engine (engine.withLoop (·.advance nanoseconds)) :=
      loop (steady_grown (Loop.grown_advance engine.loop nanoseconds))
    exact .aside _ _ passed nofun nofun
  | cancelTask task =>
    refine .aside _ _ ?_ nofun nofun
    unfold apply cancelCompletion
    dsimp only
    split
    · exact loop (steady_cancel engine task)
    · exact .refl engine
  | abort => exact .aside _ _ (aside_abortClient engine) nofun nofun
  | openGate =>
    have opened : Silent engine (engine.withClient fun c =>
        { c with gateOpen := true, gateWaiters := [] }) := aside_withClient ..
    have bare : ∀ waiter ∈ engine.client.gateWaiters, (engine.withClient fun c =>
        { c with gateOpen := true, gateWaiters := [] }).loop.Bare waiter := coherent.gate
    exact .aside _ _ (opened.trans (aside_settleAll bare .nothing)) nofun nofun
  | closeGate =>
    exact .aside _ _ (aside_withClient engine fun c => { c with gateOpen := false }) nofun nofun
  | proceed waiter =>
    refine .aside _ _ ?_ nofun nofun
    unfold apply proceed
    dsimp only
    split
    · next waits =>
      have left : Silent engine (engine.withClient fun c =>
          { c with gateWaiters := c.gateWaiters.filter (· ≠ waiter) }) := aside_withClient ..
      have bare : (engine.withClient fun c =>
          { c with gateWaiters := c.gateWaiters.filter (· ≠ waiter) }).loop.Bare waiter :=
        coherent.gate waiter waits
      exact left.trans (aside_withLoop (steady_settle bare .nothing))
    · exact .refl engine
  | script replies failure ignoresCancel heedless =>
    exact .aside _ _ (aside_withClient engine fun c =>
      { c with replies, failure, ignoresCancel, heedless }) nofun nofun
  | rescript stream actions farewell closable =>
    exact .aside _ _ (aside_modifySource engine stream fun source =>
      { source with actions, farewell, closable }) nofun nofun

theorem Moved.unfinished {move : Move} (moved : Moved env engine move new)
    (coherent : engine.Coherent touched none) {activity : Activity Phase}
    (known : engine.loop.Unfinished task activity)
    (unwoken : move = .turn → engine.woken? ≠ some task) :
    ∃ found, new.loop.Unfinished task found ∧ found.phase = activity.phase ∧
      found.waitingFor = activity.waitingFor := by
  cases moved with
  | turned next turned => exact turned.unfinished coherent known (unwoken rfl)
  | requested orchestrator document position =>
    exact ⟨activity, (Loop.unfinished_spawn _ task activity).mpr (Or.inr known), rfl, rfl⟩
  | cancelled orchestrator next retires => exact retires.steady.after task activity known
  | selected => exact ⟨activity, known, rfl, rfl⟩
  | cleared orchestrator notify =>
    unfold clearCacheFor
    dsimp only
    split <;> exact ⟨activity, known, rfl, rfl⟩
  | aside move next silent => exact silent.steady.after task activity known

/-- Whoever waits has waited so before the move, unless it was the task's own turn. -/
theorem Moved.before {move : Move} (moved : Moved env engine move new)
    (coherent : engine.Coherent touched none) {activity : Activity Phase}
    (known : new.loop.Unfinished task activity) (unwoken : move = .turn → engine.woken? ≠ some task) :
    (∃ found, engine.loop.Unfinished task found ∧ found.phase = activity.phase ∧
      found.waitingFor = activity.waitingFor) ∨
    engine.loop.futures.length ≤ task ∧ ∃ job, activity.phase = Phase.start job := by
  have steadily (steady : Steady engine new) : (∃ found, engine.loop.Unfinished task found ∧
      found.phase = activity.phase ∧ found.waitingFor = activity.waitingFor) ∨
        engine.loop.futures.length ≤ task ∧ ∃ job, activity.phase = Phase.start job := by
    rcases steady.before task activity known with before | ⟨outside, -, job, start, -⟩
    · exact Or.inl before
    · exact Or.inr ⟨outside, job, start⟩
  cases moved with
  | turned next turned =>
    cases turned with
    | idle => exact Or.inl ⟨activity, known, rfl, rfl⟩
    | released waiter rest going first =>
      exact Or.inl ⟨activity, (unfinished_release coherent first task activity).mp known, rfl, rfl⟩
    | woken other rest activity' awake going first known' same =>
      subst same
      have unlike : task ≠ other := by
        intro same
        subst same
        exact unwoken rfl (by simp [woken?, going, first])
      have woken := coherent.wake first known'
      have steady := (resumed_resume env coherent first known').steady woken
      obtain ⟨runner, runs, -⟩ := woken.sound.runs other rfl
      obtain ⟨_, runs', -⟩ := steady.after other runner runs
      have known := (unfinished_conclude runs' unlike activity).mp known
      rcases steady.before task activity known with ⟨found, there, same⟩ | ⟨outside, -, job, start, -⟩
      · rcases (Loop.unfinished_wakeFirst rest known' activity'.phase task found).mp there with
          ⟨here, -⟩ | ⟨-, there⟩
        · exact absurd here unlike
        · exact Or.inl ⟨found, there, same⟩
      · rw [Loop.length_wakeFirst] at outside
        exact Or.inr ⟨outside, job, start⟩
  | requested orchestrator document position =>
    rcases (Loop.unfinished_spawn _ task activity).mp known with ⟨rfl, rfl⟩ | known
    · exact Or.inr ⟨Nat.le_refl _, _, rfl⟩
    · exact Or.inl ⟨activity, known, rfl, rfl⟩
  | cancelled orchestrator next retires => exact steadily retires.steady
  | selected => exact Or.inl ⟨activity, known, rfl, rfl⟩
  | cleared orchestrator notify =>
    unfold clearCacheFor at known
    dsimp only at known
    split at known <;> exact Or.inl ⟨activity, known, rfl, rfl⟩
  | aside move next silent => exact steadily silent.steady

theorem Moved.ended {move : Move} (moved : Moved env engine move new)
    (coherent : engine.Coherent touched none) {id : Nat} {outcome : Outcome}
    (ended : engine.loop.outcome? id = some outcome) : new.loop.outcome? id = some outcome := by
  cases moved with
  | turned next turned => exact turned.ended coherent ended
  | requested orchestrator document position =>
    exact (Loop.outcome?_spawn engine.loop _ id).trans ended
  | cancelled orchestrator next retires => exact retires.steady.ended id outcome ended
  | selected => exact ended
  | cleared orchestrator notify =>
    unfold clearCacheFor
    dsimp only
    split <;> exact ended
  | aside move next silent => exact silent.steady.ended id outcome ended

/-- An interrupted loop stays so. -/
theorem Moved.interrupted {move : Move} (moved : Moved env engine move new)
    (stopped : engine.interrupted ≠ none) : new.interrupted ≠ none := by
  cases moved with
  | turned next turned =>
    cases turned with
    | idle => exact stopped
    | released waiter rest going => exact absurd going stopped
    | woken task rest activity awake going => exact absurd going stopped
  | requested | selected => exact stopped
  | cancelled orchestrator next retires => exact retires.interrupted ▸ stopped
  | cleared orchestrator notify =>
    unfold clearCacheFor
    dsimp only
    split <;> exact stopped
  | aside move next silent => exact silent.interrupted ▸ stopped

end InlineCompletion.Engine
