import InlineCompletion.Proofs.Engine.Balance
import InlineCompletion.Proofs.Engine.Departures

/-!
What is stopped by the steps of others. A move marks as stopped only what an orchestrator worked on whose
request it replaces, and nothing that is new; a completion that its caller leaves alone is stopped by
such a mark.
-/

namespace InlineCompletion.Engine

variable {engine old new last : Engine} {env : Environment} {hit : Belonging → Prop} {run : Run}
  {touched : Nat → Prop} {task : Nat} {work : Belonging} {move : Move}

/-! What is marked as stopped. -/

/-- The client or its reader finds it aborted. -/
def Marked (engine : Engine) : Belonging → Prop
  | .call call => call ∈ engine.client.abortedCalls
  | .stream id => ∃ stream, engine.streams[id]? = some stream ∧ stream.aborted = true
  | _ => False

/-- Nothing else is marked. -/
def Sparing (hit : Belonging → Prop) (old new : Engine) : Prop :=
  ∀ work, new.Marked work → old.Marked work ∨ hit work

namespace Sparing

theorem of_same (aborted : new.client.abortedCalls = old.client.abortedCalls)
    (streams : new.streams = old.streams) : Sparing hit old new := by
  intro work marked
  cases work with
  | call call => exact Or.inl (aborted ▸ marked : call ∈ old.client.abortedCalls)
  | stream id =>
    obtain ⟨stream, known, stopped⟩ := marked
    exact Or.inl ⟨stream, streams ▸ known, stopped⟩
  | request | watch => exact marked.elim

theorem trans (first : Sparing hit old new) (second : Sparing hit new last) : Sparing hit old last :=
  fun work marked => (second work marked).elim (first work) Or.inr

theorem mono {more : Belonging → Prop} (sparing : Sparing hit old new)
    (weaker : ∀ work, hit work → more work) : Sparing more old new :=
  fun work marked => (sparing work marked).imp_right (weaker work)

end Sparing

theorem Tallied.sparing (tallied : Tallied hit old new) : Sparing hit old new := by
  intro work marked
  cases work with
  | call call => exact (tallied.aborted call marked).imp_right And.right
  | stream id =>
    obtain ⟨found, known, stopped⟩ := marked
    have inside := (List.getElem?_eq_some_iff.mp known).1
    rw [tallied.length] at inside
    obtain ⟨found', known', -, aborted⟩ := tallied.streams id _ (List.getElem?_eq_getElem inside)
    cases known.symm.trans known'
    exact (aborted stopped).imp_left fun before => ⟨_, List.getElem?_eq_getElem inside, before⟩
  | request | watch => exact marked.elim

/-- Neither a stream nor a call is stopped when it is new. -/
theorem Accounted.sparing {reads : Option Nat} {step : Step} (accounted : Accounted hit reads old step) :
    Sparing hit old step.1 := by
  cases accounted with
  | minds minded => exact minded.tallied.sparing
  | opens middle request call first second =>
    have opened : Sparing hit middle (middle.granted request call) := by
      intro work marked
      cases work with
      | call call => exact Or.inl marked
      | stream id =>
        obtain ⟨stream, known, stopped⟩ := marked
        have known : (middle.streams ++ [{ source := { opening := some call } }])[id]? = some stream := known
        rw [List.getElem?_append] at known
        split at known
        · exact Or.inl ⟨stream, known, stopped⟩
        · cases List.mem_singleton.mp (List.mem_of_getElem? known)
          cases stopped
      | request | watch => exact marked.elim
    exact (first.sparing.trans opened).trans (second.tallied.sparing.mono fun _ => False.elim)
  | calls middle call owner first second =>
    have begun : Sparing hit middle (middle.beginCall call).2 := .of_same rfl rfl
    exact (first.sparing.trans begun).trans (second.sparing.mono fun _ => False.elim)

/-- What a move stops: everything, or the work of the request that it replaces. -/
def Condemned (engine : Engine) (move : Move) (work : Belonging) : Prop :=
  move = .abort ∨ ∃ orchestrator, engine.supersedes? move = some orchestrator ∧
    engine.workOf orchestrator work

theorem starts_of_stopsOf {phase : Phase} {outcome : Outcome} (stopped : engine.stopsOf phase outcome work) :
    ∃ orchestrator, phase.starts? = some orchestrator ∧ outcome ≠ .cancelled ∧
      engine.workOf orchestrator work := by
  cases phase with
  | start job =>
    cases outcome with
    | value v =>
      cases job with
      | complete orchestrator document position => exact ⟨orchestrator, rfl, nofun, stopped⟩
      | _ => exact stopped.elim
    | failed failure | cancelled => cases job <;> exact stopped.elim
  | _ => cases outcome <;> exact stopped.elim

theorem sparing_turn (env : Environment) (coherent : engine.Coherent touched none) :
    Sparing (engine.Condemned .turn) engine (engine.apply env .turn) := by
  have turned : Turned env engine (engine.apply env .turn) := turned_turn env coherent
  generalize engine.apply env .turn = next at *
  cases turned with
  | idle | released => exact .of_same rfl rfl
  | woken task rest activity awake going first known same =>
    have accounted := (accounted_resume env awake activity.phase (engine.incoming activity)).sparing
    obtain ⟨streams, client⟩ := conclude_client task
      (awake.resume env activity.phase (engine.incoming activity))
    have dropped : Sparing (engine.Condemned .turn) engine (awake.dropped activity.phase) := by
      intro work marked
      subst same
      unfold dropped at marked
      split at marked
      · cases work with
        | call call => exact Or.inl (List.mem_filter.mp marked).1
        | stream | request | watch => exact Or.inl marked
      · cases work <;> exact Or.inl marked
    refine (dropped.trans (accounted.mono fun work stopped => ?_)).trans (.of_same (by rw [client]) streams)
    subst same
    obtain ⟨orchestrator, starts, wanted, works⟩ := starts_of_stopsOf stopped
    have begins : engine.begins? = some orchestrator := by
      simp [begins?, woken?, going, first, known.1, starts, wanted]
    exact Or.inr ⟨orchestrator, begins, works⟩

theorem sparing_apply (env : Environment) (coherent : engine.Coherent touched none) (move : Move) :
    Sparing (engine.Condemned move) engine (engine.apply env move) := by
  by_cases turns : move = .turn
  · subst turns
    exact sparing_turn env coherent
  by_cases asks : ∃ orchestrator document position, move = .request orchestrator document position
  · obtain ⟨orchestrator, document, position, rfl⟩ := asks
    exact .of_same rfl rfl
  by_cases timeless : move.timeless = true
  case neg => cases move <;> first | exact .of_same rfl rfl | exact absurd rfl timeless
  have tallied := tallied_apply env engine move turns timeless
    fun orchestrator document position same => asks ⟨orchestrator, document, position, same⟩
  refine tallied.sparing.mono fun work stopped => ?_
  cases move with
  | abort => exact Or.inl rfl
  | cancel orchestrator => exact Or.inr ⟨orchestrator, rfl, stopped⟩
  | _ => exact stopped.elim

/-- What an orchestrator works on belongs to a task that was made for it. -/
theorem holder_of_workOf (coherent : engine.Coherent touched none) (ruled : engine.Ruled)
    {orchestrator : Nat} (works : engine.workOf orchestrator work) :
    ∃ task activity run, engine.loop.Unfinished task activity ∧ activity.phase.run? = some run ∧
      run.orchestrator = orchestrator ∧ work ∈ activity.phase.belongings := by
  obtain ⟨o, id, found, current, request, known, -, holds⟩ := works
  have tenure : engine.tenureOf orchestrator = some (some id, o.generation) := by
    simp [tenureOf, found, Orchestrator.tenure, current]
  obtain ⟨-, task, run, mine, here, asked⟩ := ruled.governed.current orchestrator id o.generation tenure
  obtain ⟨activity, unfinished, runs⟩ := runOf_eq_some_iff.mp mine
  refine ⟨task, activity, run, unfinished, runs, here, ?_⟩
  subst asked
  have idle (unasked : engine.Unasked run.request) : request.call = none ∧ request.stream = none := by
    obtain ⟨other, known', call, stream⟩ := unasked
    cases known.symm.trans known'
    exact ⟨call, stream⟩
  cases coherent.fits task activity unfinished (Option.some_ne_none task).symm with
  | start job phase | watching phase | answering _ phase | pulling _ phase =>
    rw [phase] at runs
    cases runs
  | debouncing watch run' phase vigil | unwinding watch _ run' phase vigil =>
    rw [phase] at runs
    cases runs
    obtain ⟨-, -, -, -, unasked, -⟩ := vigil
    obtain ⟨call, stream⟩ := idle unasked
    cases work <;> simp_all [Request.Works]
  | calling call run' phase _ _ attached =>
    rw [phase] at runs ⊢
    cases runs
    obtain ⟨other, known', call', stream⟩ := attached
    cases known.symm.trans known'
    cases work <;> simp_all [Request.Works, Phase.belongings]
  | reading stream read run' pieces _ phase _ _ attached | closing stream run' _ _ phase _ attached =>
    rw [phase] at runs ⊢
    cases runs
    obtain ⟨other, known', stream'⟩ := attached
    cases known.symm.trans known'
    cases work <;> simp_all [Request.Works, Phase.belongings]

/-! What is stopped. -/

/-- The work of the task was aborted, or whoever does it goes on with a cancellation. -/
def Stopped (engine : Engine) (task : Nat) (work : Belonging) : Prop :=
  engine.Marked work ∨ ∃ activity target, engine.loop.Unfinished task activity ∧
    activity.waitingFor = some target ∧ engine.loop.Struck none target

/-- A task that was begun for this one has not been told to stop. -/
theorem not_struck_spawned {middle : Engine} {job : Job} {step : Step} {runner : Activity Phase}
    {phase : Phase} (runs : step.1.loop.Unfinished task runner)
    (loop : step.1.loop = (middle.spawn job).2.loop)
    (waits : step.2 = .wait middle.loop.futures.length phase) (other : middle.loop.futures.length ≠ task) :
    ¬(conclude task step).loop.Struck none middle.loop.futures.length := by
  obtain ⟨new, verdict⟩ := step
  subst waits
  have calm : ¬new.loop.Struck none middle.loop.futures.length := loop ▸ not_struck_spawn job nofun
  have same (id : Nat) : (new.loop.park task phase middle.loop.futures.length).outcome? id =
      new.loop.outcome? id := Loop.outcome?_park ..
  intro struck
  refine calm (struck.mono id (fun id ended => (same id).symm.trans ended) fun found unfinished => ?_)
  rcases (Loop.unfinished_park runs phase _ _ found).mp unfinished with ⟨here, -⟩ | ⟨-, unfinished⟩
  · exact absurd here other
  · exact unfinished

/-- What a completion has a call or stream for is done by someone else. -/
theorem Fits.does_duty {activity : Activity Phase} (fits : engine.Fits touched none task activity)
    (duty : activity.phase.duty? = some work) :
    ∃ errand target, activity.waitingFor = some target ∧ engine.Does errand target := by
  cases fits with
  | calling call run' phase waits does => exact ⟨_, call, waits, does⟩
  | reading stream read run' pieces found phase waits does => exact ⟨_, read, waits, does⟩
  | start _ phase | watching phase | answering _ phase | pulling _ phase | debouncing _ _ phase
  | unwinding _ _ _ phase | closing _ _ _ _ phase =>
    rw [phase] at duty
    cases duty

/-- Nobody has known of it so far. -/
def Unknown (engine : Engine) : Belonging → Prop
  | .call call => engine.loop.futures.length ≤ call
  | .stream id => engine.streams.length ≤ id
  | _ => False

theorem length_freed (engine : Engine) (phase : Phase) :
    (engine.freed phase).streams.length = engine.streams.length := by
  unfold freed
  split
  · exact List.length_modify ..
  · rfl

/-- The work that a task has after a turn is new, unless it goes on to read the same stream. In either
case it waits for a task that was begun for it. -/
theorem begun_of_step {old : Engine} {before phase : Phase} {new : Engine} {target : Nat}
    {runner : Activity Phase} (released : (old.dropped before).Released)
    (accounted : Accounted hit before.reads? (old.dropped before) (new, .wait target phase))
    (flow : Flow old before (new, .wait target phase)) (duty : phase.duty? = some work)
    (unfinished : new.loop.Unfinished task runner) (other : target ≠ task) :
    ¬(conclude task (new, .wait target phase)).loop.Struck none target ∧
      (old.Unknown work ∨ before.duty? = some work) := by
  have reads (calls : phase.calls? = none) :
      ¬(conclude task (new, .wait target phase)).loop.Struck none target ∧
        (old.Unknown work ∨ before.duty? = some work) := by
    cases reads : phase.reads? with
    | none =>
      unfold Phase.duty? at duty
      rw [calls, reads] at duty
      cases duty
    | some id =>
      cases duty.symm.trans (Phase.duty?_eq_stream_iff.mpr reads)
      cases flow with
      | leaves _ left =>
        cases left with
        | rests _ ebbed => cases reads.symm.trans (ebbed.next target phase rfl).1
        | reads middle stream run pieces found _ _ _ mine =>
          cases reads
          refine ⟨not_struck_spawned unfinished rfl rfl other, mine.imp (fun outside => ?_)
            Phase.duty?_eq_stream_iff.mpr⟩
          rwa [length_freed] at outside
      | draws _ stream pulls known draws =>
        cases draws
        cases reads
  cases accounted with
  | minds minded => exact reads (minded.idle phase rfl)
  | opens middle request call first second => exact reads (second.idle phase rfl)
  | calls middle call owner first second loop waits =>
    cases waits
    cases duty
    have same : (old.dropped before).loop = old.loop := by
      unfold dropped
      split <;> rfl
    have length := (first.steady released).length
    rw [same] at length
    exact ⟨not_struck_spawned unfinished loop rfl other, Or.inl length⟩

/-- A completion is the same before and after a turn. -/
theorem run?_of_woken (env : Environment) (coherent : engine.Coherent touched none) {rest : List Handle}
    (first : engine.loop.ready = .wake task :: rest) {activity : Activity Phase}
    (known : engine.loop.Unfinished task activity) {target : Nat} {phase : Phase} {new : Engine}
    (step : ({ engine with loop := engine.loop.wakeFirst rest task activity.phase } : Engine).resume env
      activity.phase (engine.incoming activity) = (new, .wait target phase))
    (runs : phase.run? = some run) : activity.phase.run? = some run ∨ activity.phase.duty? = none := by
  have resumed := resumed_resume env coherent first known
  rw [step] at resumed
  cases resumed with
  | plays run' works played =>
    cases played with
    | waits _ _ _ deeds works' =>
      cases runs.symm.trans works'
      exact Or.inl works
  | begins orchestrator o run' starts =>
    right
    unfold Phase.starts? at starts
    split at starts
    · next same => rw [same]; rfl
    · cases starts
  | absent orchestrator starts wanted nowhere same => cases same
  | assists idle unstarted assists =>
    have helps := assists.helps target phase rfl
    simp [Phase.isCompletion, runs] at helps

/-- The task works for the run, and this is its work. -/
structure Works (engine : Engine) (task : Nat) (run : Run) (work : Belonging) : Prop where
  run : engine.runOf task = some run
  duty : engine.dutyOf task = some work

theorem works_iff : engine.Works task run work ↔ ∃ activity, engine.loop.Unfinished task activity ∧
    activity.phase.run? = some run ∧ activity.phase.duty? = some work := by
  constructor
  · intro works
    obtain ⟨activity, known, runs⟩ := runOf_eq_some_iff.mp works.run
    obtain ⟨phase, there, duty⟩ := Option.bind_eq_some_iff.mp works.duty
    obtain ⟨found, known', rfl⟩ := phaseOf_eq_some_iff.mp there
    cases known.unique known'
    exact ⟨activity, known, runs, duty⟩
  · intro given
    obtain ⟨activity, known, runs, duty⟩ := given
    exact ⟨runOf_eq_some_iff.mpr ⟨activity, known, runs⟩, Option.bind_eq_some_iff.mpr
      ⟨activity.phase, phaseOf_eq_some_iff.mpr ⟨activity, known, rfl⟩, duty⟩⟩

/-- Work that a task has not had before is new to everybody, and nobody has been told to stop it. -/
theorem begun_of_woken (env : Environment) (coherent : engine.Coherent touched none)
    (released : engine.Released) (manned : engine.Manned) (woken : engine.woken? = some task)
    (works : (engine.apply env .turn).Works task run work) {activity : Activity Phase} {target : Nat}
    (known : (engine.apply env .turn).loop.Unfinished task activity)
    (waits : activity.waitingFor = some target) :
    ¬(engine.apply env .turn).loop.Struck none target ∧
      (engine.Unknown work ∨ engine.Works task run work) := by
  have coherent' : (engine.apply env .turn).Coherent touched none := coherent.apply env .turn nofun
  obtain ⟨found, known', runs, duty⟩ := works_iff.mp works
  cases known.unique known'
  obtain ⟨-, rest, first⟩ := woken?_eq_some_iff.mp woken
  obtain ⟨before, there, -⟩ := Loop.Sound.wake coherent.sound first
  obtain ⟨rest', first', same⟩ := turn_of_woken env coherent woken there
  cases first.symm.trans first'
  obtain ⟨runner, unfinished⟩ := runner_of_woken env coherent first there
  let awake : Engine := { engine with loop := engine.loop.wakeFirst rest task before.phase }
  have awakes : (awake.dropped before.phase).Released := by
    have woken : awake.Released := released.wake (fun _ member => first ▸ List.mem_cons_of_mem _ member) there
    unfold dropped
    split
    · exact ⟨woken.lone, woken.gate, woken.requests⟩
    · exact woken
  have accounted := accounted_resume env awake before.phase (engine.incoming before)
  have flow : Flow awake before.phase _ :=
    flow_resume env coherent manned there (rfl : awake.streams = engine.streams) (engine.incoming before)
  have carried {target : Nat} {phase : Phase} {new : Engine}
      (step : awake.resume env before.phase (engine.incoming before) = (new, .wait target phase))
      (runs : phase.run? = some run) := run?_of_woken env coherent first there step runs
  have other : target ≠ task := by
    obtain ⟨errand, target', waits', does⟩ := (coherent'.fits task activity known nofun).does_duty duty
    cases waits.symm.trans waits'
    intro here
    subst here
    have helps := (does.2 activity known).isCompletion_eq_false
    simp [Phase.isCompletion, runs] at helps
  have same : engine.apply env .turn = conclude task _ := same
  rw [same] at known ⊢
  change awake.Flow before.phase (awake.resume env before.phase (engine.incoming before)) at flow
  change (awake.resume env before.phase (engine.incoming before)).1.loop.Unfinished task runner at unfinished
  change (conclude task (awake.resume env before.phase (engine.incoming before))).loop.Unfinished task
    activity at known
  change ¬(conclude task (awake.resume env before.phase (engine.incoming before))).loop.Struck none target ∧ _
  generalize step : awake.resume env before.phase (engine.incoming before) = result at *
  obtain ⟨new, verdict⟩ := result
  cases verdict with
  | done result =>
    rw [loop_conclude_done] at known
    exact absurd rfl ((Loop.unfinished_finish unfinished result task activity).mp known).1
  | wait target' phase =>
    rcases (Loop.unfinished_park unfinished phase target' task activity).mp known with ⟨-, rfl⟩ | ⟨different, -⟩
    · cases waits
      obtain ⟨calm, unknown⟩ := begun_of_step awakes accounted flow duty unfinished other
      refine ⟨calm, unknown.imp (fun unknown => ?_) fun held => ?_⟩
      · cases work with
        | call call =>
          have outside : awake.loop.futures.length ≤ call := unknown
          rwa [show awake.loop.futures.length = engine.loop.futures.length from
            Loop.length_wakeFirst ..] at outside
        | stream id => exact unknown
        | request | watch => exact unknown
      · rcases carried rfl runs with mine | idle
        · exact works_iff.mpr ⟨before, there, mine, held⟩
        · cases held.symm.trans idle
    · exact absurd rfl different

/-- The work of a completion is one of its belongings. -/
theorem mem_belongings_of_duty {phase : Phase} (runs : phase.run? = some run) (duty : phase.duty? = some work) :
    work ∈ phase.belongings := by
  unfold Phase.run? at runs
  split at runs
  · cases duty
  · cases duty
  · cases runs
    cases duty
    exact List.mem_cons_of_mem _ (List.mem_cons_self ..)
  · cases duty
    exact List.mem_cons_of_mem _ (List.mem_cons_self ..)
  · cases duty
  · cases runs

/-- The caller of a completion has no part in it, as long as it is not stopped. -/
theorem Coherent.spare (coherent : engine.Coherent touched none) {activity : Activity Phase}
    (known : engine.loop.Unfinished task activity) (duty : activity.phase.duty? = some work) {target : Nat}
    (waits : activity.waitingFor = some target) (pending : engine.loop.isPending target = true)
    (free : ¬engine.loop.Struck none target) : engine.Coherent (· ≠ task) none := by
  have calm : activity.cancelRequested = true → task ≠ task := fun asked =>
    absurd (Or.inl asked) (coherent.not_roused known waits pending)
  refine coherent.exempt fun other unfinished => ?_
  cases known.unique unfinished
  cases coherent.fits task activity known nofun with
  | calling call run phase waits' works attached active =>
    cases waits.symm.trans waits'
    exact .calling target run phase waits works attached active (fun struck => absurd struck free) calm
  | reading stream read run pieces found phase waits' works attached there pending =>
    cases waits.symm.trans waits'
    exact .reading stream target run pieces found phase waits works attached there pending
      (fun struck => absurd struck free) calm
  | start _ phase | watching phase | answering _ phase | pulling _ phase | debouncing _ _ phase
  | unwinding _ _ _ phase | closing _ _ _ _ phase =>
    rw [phase] at duty
    cases duty

/-- A completion of which its caller wants nothing is stopped by what marks its work. -/
theorem Coherent.marked (coherent : engine.Coherent (· ≠ task) none) {activity : Activity Phase}
    (known : engine.loop.Unfinished task activity) (duty : activity.phase.duty? = some work) {target : Nat}
    (waits : activity.waitingFor = some target) (struck : engine.loop.Struck none target) :
    engine.Marked work := by
  cases coherent.fits task activity known nofun with
  | calling call run phase waits' works attached active stopped =>
    rw [phase] at duty
    cases duty
    cases waits.symm.trans waits'
    exact (stopped struck).resolve_right fun other => other rfl
  | reading stream read run pieces found phase waits' works attached there pending stopped =>
    rw [phase] at duty
    cases duty
    cases waits.symm.trans waits'
    exact ⟨found, there, (stopped struck).resolve_right fun other => other rfl⟩
  | start _ phase | watching phase | answering _ phase | pulling _ phase | debouncing _ _ phase
  | unwinding _ _ _ phase | closing _ _ _ _ phase =>
    rw [phase] at duty
    cases duty

end InlineCompletion.Engine
