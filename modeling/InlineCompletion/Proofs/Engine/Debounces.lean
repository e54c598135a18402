import InlineCompletion.Proofs.Engine.Entries
import InlineCompletion.Proofs.Engine.Waits

/-!
When the client is asked. A request asks in the turn in which its debounce ends with nobody having
cancelled it, or at once where there is no delay; and a debounce that begins waits for its time.
-/

namespace InlineCompletion

/-- A task that waits has asked for its completion. -/
def Verdict.Asked (verdict : Verdict) : Prop :=
  ∀ target phase, verdict = .wait target phase → phase.asked = true

theorem Verdict.asked_done (outcome : Outcome) : (Verdict.done outcome).Asked :=
  fun _ _ waits => by cases waits

/-- The delay of a debounce in nanoseconds. -/
def Settings.delay (settings : Settings) : Nat :=
  settings.debounceMs.toNat * Engine.nanosecondsPerMillisecond

namespace Engine

variable {engine old new last : Engine} {env : Environment} {run : Run} {touched : Nat → Prop}
  {task orchestrator : Nat} {phase : Phase} {outcome : Outcome} {step : Step}

/-- The times at which a request asked the client. -/
def asks (engine : Engine) (request : Nat) : List Nat :=
  engine.events.filterMap fun
    | .asked id now _ => if id = request then some now else none
    | _ => none

/-- Nobody asks. -/
structure Mute (old new : Engine) : Prop where
  same : ∀ request, new.asks request = old.asks request

/-- This request asks, and nobody else. -/
structure Asks (run : Run) (now : Nat) (old new : Engine) : Prop where
  tells : ∀ request, new.asks request = old.asks request ++ if request = run.request then [now] else []

theorem Mute.trans (first : Mute old new) (second : Mute new last) : Mute old last :=
  ⟨fun request => (second.same request).trans (first.same request)⟩

theorem Mute.of_same (events : new.events = old.events) : Mute old new := by
  refine ⟨fun request => ?_⟩
  unfold asks
  rw [events]

theorem Mute.asks {now : Nat} (mute : Mute old new) (asks : Asks run now new last) : Asks run now old last :=
  ⟨fun request => by rw [asks.tells, mute.same]⟩

theorem Asks.mute {now : Nat} (asks : Asks run now old new) (mute : Mute new last) : Asks run now old last :=
  ⟨fun request => (mute.same request).trans (asks.tells request)⟩

theorem mute_of_told {told : List Event} (events : new.events = old.events ++ told)
    (others : ∀ event ∈ told, ∀ request now call, event ≠ .asked request now call) : Mute old new := by
  refine ⟨fun request => ?_⟩
  unfold asks
  rw [events, List.filterMap_append]
  refine (congrArg _ (List.filterMap_eq_nil_iff.mpr fun event member => ?_)).trans (List.append_nil _)
  cases event with
  | asked id now call => exact absurd rfl (others _ member id now call)
  | recorded | consulted | stored | notified | stoppedCall | stoppedStream => rfl

theorem mute_emit (engine : Engine) (event : Event)
    (other : ∀ request now call, event ≠ .asked request now call) : Mute engine (engine.emit event) :=
  mute_of_told rfl fun found member => by
    cases List.mem_singleton.mp member
    exact other

theorem asks_emit (engine : Engine) (run : Run) (now : Nat) (call : Call) :
    Asks run now engine (engine.emit (.asked run.request now call)) := by
  refine ⟨fun request => ?_⟩
  unfold asks emit
  rw [List.filterMap_append]
  by_cases mine : run.request = request
  · simp [mine]
  · simp [mine, Ne.symm mine]

/-! The end of a completion asks nobody. -/

theorem mute_endRun (engine : Engine) (run : Run) (outcome : Outcome) :
    Mute engine (engine.endRun run outcome).1 := by
  unfold endRun
  dsimp only
  split <;> exact .of_same rfl

theorem mute_afterCall (env : Environment) (run : Run) (engine : Engine) (outcome : Outcome) :
    Mute engine (engine.afterCall env run outcome).1 := by
  cases outcome with
  | cancelled => exact mute_endRun ..
  | failed failure =>
    unfold afterCall
    dsimp only
    split
    · exact mute_endRun ..
    · split
      · exact mute_endRun ..
      · exact (mute_emit engine (.notified (.failed failure)) nofun).trans (mute_endRun ..)
  | value v =>
    unfold afterCall
    dsimp only
    split
    · unfold acceptReply
      split
      · exact mute_endRun ..
      · dsimp only
        split
        · exact mute_endRun ..
        · refine Mute.trans ?_ (mute_endRun ..)
          unfold store
          split
          · exact .of_same rfl
          · exact (mute_emit engine (.stored ..) nofun).trans (.of_same rfl)
    · exact mute_endRun ..

theorem Pursues.mute (pursues : Pursues env run old step) : Mute old step.1 := by
  cases pursues with
  | waits new target phase silent => exact .of_same silent.silent_events
  | ended new outcome silent => exact (Mute.of_same silent.silent_events).trans (mute_afterCall ..)

theorem Pursues.asked (pursues : Pursues env run old step) : step.2.Asked := by
  intro target phase waits
  cases pursues with
  | waits new target' phase' silent works asked =>
    cases waits
    exact asked
  | ended new outcome silent =>
    obtain ⟨result, ends⟩ := afterCall_ends env run new outcome
    cases waits.symm.trans ends

/-- Nothing but the end of a debounce makes a completion ask. -/
theorem Decides.asked (decides : Decides env run old outcome step) : step.2.Asked ∧ (Mute old step.1 ∨
    outcome = .value (.truth true) ∧ old.isLive run = true ∧ Asks run old.loop.now old step.1) := by
  cases decides with
  | asks o call new target phase passed live found selected silent outset =>
    have entered : Mute old (old.setStage run.orchestrator .generating) := .of_same rfl
    have asks := asks_emit (old.setStage run.orchestrator .generating) run old.loop.now call
    refine ⟨fun _ _ waits => ?_, Or.inr ⟨passed, live, (entered.asks asks).mute (.of_same silent.silent_events)⟩⟩
    cases waits
    exact outset.asked
  | unselected o passed live found none =>
    exact ⟨Verdict.asked_done _, Or.inl ((mute_emit old (.notified .noModel) nofun).trans (mute_endRun ..))⟩
  | stops result same why => exact ⟨Verdict.asked_done _, Or.inl (mute_endRun ..)⟩

/-! One turn of a completion. -/

/-- How a completion goes on: it has asked, it gives up the watch of its debounce, or it asks. -/
inductive Goes (run : Run) (old : Engine) (phase : Phase) (outcome : Outcome) (step : Step) : Prop where
  | onward (mute : Mute old step.1) (asked : step.2.Asked)
  | unwinds (watch waiter : Nat) (timedOut : Bool) (debounces : phase = .debouncing watch (some run))
    (guarded : ¬old.loop.isDone watch = true) (passed : timedOut = true → outcome ≠ .cancelled)
    (mute : Mute old step.1) (waits : step.2 = .wait waiter (.unwinding watch timedOut (some run)))
  | asks (watch : Nat) (unwinds : phase = .unwinding watch true (some run)) (live : old.isLive run = true)
    (asks : Asks run old.loop.now old step.1) (asked : step.2.Asked)

theorem watchOutcome_ne_true (outcome : Option Outcome) : watchOutcome outcome ≠ .value (.truth true) := by
  unfold watchOutcome
  split
  · simp
  · next valueless =>
    rintro rfl
    exact valueless _ rfl
  · simp

theorem goes_resume (env : Environment) (works : phase.run? = some run) (engine : Engine)
    (outcome : Outcome) : Goes run engine phase outcome (engine.resume env phase outcome) := by
  by_cases asked : phase.asked = true
  · have pursues := pursues_resume env works asked engine outcome
    exact .onward pursues.mute pursues.asked
  cases phase with
  | debouncing watch owner =>
    cases works
    show Goes _ _ _ _ (deliver env (some run) (engine.resumeDebounce watch (some run) outcome))
    unfold resumeDebounce
    split
    · obtain ⟨asked, mute | ⟨passed, -⟩⟩ := (decides_afterDebounce env run engine
        (watchOutcome (engine.loop.outcome? watch))).asked
      · exact .onward mute asked
      · exact absurd passed (watchOutcome_ne_true _)
    · next guarded =>
      exact .unwinds watch _ _ rfl guarded (fun passed => of_decide_eq_true passed) (.of_same rfl) rfl
  | unwinding watch timedOut owner =>
    cases works
    show Goes _ _ _ _ (deliver env (some run) (engine.resumeUnwinding watch timedOut outcome))
    unfold resumeUnwinding
    split
    · obtain ⟨asked, mute | ⟨passed, -⟩⟩ := (decides_afterDebounce env run engine .cancelled).asked
      · exact .onward mute asked
      · cases passed
    · next passed =>
      have passed : outcome ≠ .cancelled ∧ timedOut = true := by simpa using passed
      obtain ⟨asked, mute | ⟨-, live, asks⟩⟩ := (decides_afterDebounce env run engine
        (.value (.truth (engine.loop.outcome? watch = some .cancelled)))).asked
      · exact .onward mute asked
      · exact .asks watch (by rw [passed.2]) live asks asked
  | calling call owner =>
    cases works
    exact absurd rfl asked
  | reading stream consumer =>
    cases consumer with
    | completion => exact absurd rfl asked
    | next | collect => cases works
  | closing stream closer =>
    cases closer with
    | completion => exact absurd rfl asked
    | outside => cases works
  | start | watching | answering | pulling => cases works

/-- How a completion begins: it is answered at once, it waits for its time, or it asks without delay. -/
inductive Begins (run : Run) (delay : Nat) (old : Engine) (step : Step) : Prop where
  | onward (mute : Mute old step.1) (asked : step.2.Asked)
  | debounces (watch waiter : Nat) (delayed : delay ≠ 0) (mute : Mute old step.1)
    (waits : step.2 = .wait waiter (.debouncing watch (some run)))
    (punctual : step.1.Punctual waiter watch (old.loop.now + delay))
    (timed : ∃ timer ∈ step.1.loop.timers, timer.waiter = waiter)
  | asks (undelayed : delay = 0) (asks : Asks run old.loop.now old step.1) (asked : step.2.Asked)

theorem begins_awaitDebounce (env : Environment) (released : engine.Released) (settings : Settings) :
    Begins run settings.delay engine (engine.awaitDebounce env run settings) := by
  have entered : Mute engine (engine.setStage run.orchestrator .debouncing) := .of_same rfl
  unfold awaitDebounce
  dsimp only
  split
  · exact .onward (entered.trans (mute_endRun ..)) (Verdict.asked_done _)
  · show Begins _ _ _ (deliver env (some run) ((engine.setStage run.orchestrator .debouncing).startDebounce
      run.request settings.delay (some run)))
    unfold startDebounce
    split
    · obtain ⟨asked, mute | ⟨passed, -⟩⟩ := (decides_afterDebounce env run
        (engine.setStage run.orchestrator .debouncing) (.value (.truth false))).asked
      · exact .onward (entered.trans mute) asked
      · cases passed
    · split
      · next undelayed =>
        obtain ⟨asked, mute | ⟨-, -, asks⟩⟩ := (decides_afterDebounce env run
          (engine.setStage run.orchestrator .debouncing) (.value (.truth true))).asked
        · exact .onward (entered.trans mute) asked
        · exact .asks undelayed (entered.asks asks) asked
      · next delayed =>
        refine .debounces _ _ delayed (.of_same rfl) rfl ⟨released.lone.punctual _ _, fun member => ?_,
          fun id request known member => ?_⟩
          ⟨⟨engine.loop.now + settings.delay, engine.loop.futures.length⟩, ?_, rfl⟩
        · exact Nat.lt_irrefl _ (released.gate _ member).1
        · exact Nat.lt_irrefl _ (released.requests id request known _ member).1
        · show _ ∈ (Loop.watch _ _ _).timers
          rw [Loop.timers_watch]
          exact Loop.mem_insertTimer.mpr (Or.inl rfl)

theorem Begins.of_mute {delay : Nat} (mute : Mute old new) (now : new.loop.now = old.loop.now)
    (begins : Begins run delay new step) : Begins run delay old step := by
  cases begins with
  | onward mute' asked => exact .onward (mute.trans mute') asked
  | debounces watch waiter delayed mute' waits punctual timed =>
    exact .debounces watch waiter delayed (mute.trans mute') waits (now ▸ punctual) timed
  | asks undelayed asks asked => exact .asks undelayed (mute.asks (now ▸ asks)) asked

theorem begins_lookUp (env : Environment) (released : engine.Released) (o : Orchestrator) :
    Begins run o.settings.delay engine (match engine.lookUp env run o.cache with
      | (some entry, engine) => (engine.setStage run.orchestrator .cacheHit).endRun run
          (.value (run.insertion entry.completion))
      | (none, engine) => engine.awaitDebounce env run o.settings) := by
  have looked : Mute engine (engine.lookUp env run o.cache).2 := by
    unfold lookUp
    split
    · exact .of_same rfl
    · exact (mute_emit engine (.consulted ..) nofun).trans (.of_same rfl)
  have tallied : Tallied (fun _ => False) engine (engine.lookUp env run o.cache).2 :=
    tallied_lookUp env run engine o.cache
  split
  · next entry new same =>
    rw [same] at looked
    have entered : Mute new (new.setStage run.orchestrator .cacheHit) := .of_same rfl
    exact .onward ((looked.trans entered).trans (mute_endRun ..)) (Verdict.asked_done _)
  · next new same =>
    rw [same] at looked tallied
    exact .of_mute looked tallied.timely.now
      (begins_awaitDebounce env (tallied.released released) o.settings)

theorem begins_startCompletion (env : Environment) {running : Option (Nat × Outcome)}
    (coherent : engine.Coherent touched running) {o : Orchestrator}
    (found : engine.orchestrators[orchestrator]? = some o) (document : Document) (position : Position) :
    Begins (Run.entering env o.settings orchestrator engine.requests.length document position)
      o.settings.delay engine (engine.startCompletion env orchestrator document position) := by
  obtain ⟨newest, succeeds⟩ := succeeds_beginRequest coherent found
  have tallied := tallied_beginRequest engine orchestrator
  obtain ⟨told, events, stops⟩ := succeeds.events
  have mute : Mute engine (engine.beginRequest orchestrator).2 :=
    mute_of_told events fun event member _ _ _ same => by
      cases same
      exact stops _ member
  have found' : (engine.beginRequest orchestrator).2.orchestrators[orchestrator]? =
      some { o.retired with current := some engine.requests.length } := by
    simp [succeeds.orchestrators, found]
  refine .of_mute mute tallied.timely.now ?_
  rw [← newest]
  unfold startCompletion
  simp only [found']
  rw [newest]
  exact begins_lookUp env (tallied.released coherent.released)
    { o.retired with current := some engine.requests.length }

/-! One move. -/

/-- The request asks in the next turn: its debounce is over, or it begins without delay. -/
inductive Asking (env : Environment) (engine : Engine) (run : Run) : Prop where
  | late (task watch : Nat) (activity : Activity Phase) (woken : engine.woken? = some task)
    (known : engine.loop.Unfinished task activity) (phase : activity.phase = .unwinding watch true (some run))
    (live : engine.isLive run = true)
  | atOnce (o : Orchestrator) (begun : run ∈ engine.entering? env .turn)
    (found : engine.orchestrators[run.orchestrator]? = some o) (undelayed : o.settings.delay = 0)

/-- How a completion that waits after a move has come to do so. -/
inductive Bound (env : Environment) (engine : Engine) (move : Move) (new : Engine) (task : Nat)
    (activity : Activity Phase) (run : Run) : Prop where
  | asked (asked : activity.phase.asked = true)
  | stays (found : Activity Phase) (unwoken : move = .turn → engine.woken? ≠ some task)
    (known : engine.loop.Unfinished task found) (phase : found.phase = activity.phase)
    (waiting : found.waitingFor = activity.waitingFor)
  | unwinds (found : Activity Phase) (watch : Nat) (timedOut : Bool) (woken : engine.woken? = some task)
    (known : engine.loop.Unfinished task found) (debounces : found.phase = .debouncing watch (some run))
    (guarded : ¬engine.loop.isDone watch = true)
    (passed : timedOut = true → engine.incoming found ≠ .cancelled)
    (phase : activity.phase = .unwinding watch timedOut (some run))
  | debounces (o : Orchestrator) (watch waiter : Nat) (begun : run ∈ engine.entering? env .turn)
    (found : engine.orchestrators[run.orchestrator]? = some o) (delayed : o.settings.delay ≠ 0)
    (phase : activity.phase = .debouncing watch (some run)) (waits : activity.waitingFor = some waiter)
    (punctual : new.Punctual waiter watch (engine.loop.now + o.settings.delay))
    (timed : ∃ timer ∈ new.loop.timers, timer.waiter = waiter)

/-- What a move comes to for those who wait for their completions. -/
structure Courses (env : Environment) (engine : Engine) (move : Move) (new : Engine) : Prop where
  asks : Mute engine new ∨ ∃ run, move = .turn ∧ engine.Asking env run ∧ Asks run engine.loop.now engine new
  bound : ∀ task activity run, new.loop.Unfinished task activity → activity.phase.run? = some run →
    Bound env engine move new task activity run

theorem bound_of_unwoken (env : Environment) (coherent : engine.Coherent touched none) {move : Move}
    (unwoken : move = .turn → engine.woken? ≠ some task) {activity : Activity Phase}
    (known : (engine.apply env move).loop.Unfinished task activity) (works : activity.phase.run? = some run) :
    Bound env engine move (engine.apply env move) task activity run := by
  rcases (moved_apply env coherent move).before coherent known unwoken with
    ⟨found, known', phase, waiting⟩ | ⟨-, job, start⟩
  · exact .stays found unwoken known' phase waiting
  · rw [start] at works
    cases works

/-- Without a turn of a task nobody asks. -/
theorem mute_of_unwoken (env : Environment) (coherent : engine.Coherent touched none) {move : Move}
    (unwoken : move = .turn → engine.woken? = none) : Mute engine (engine.apply env move) := by
  have moved := moved_apply env coherent move
  generalize engine.apply env move = next at moved
  cases moved with
  | turned next turned =>
    cases turned with
    | idle => exact .of_same rfl
    | released => exact .of_same rfl
    | woken task rest activity awake going first =>
      have woken := unwoken rfl
      simp [woken?, going, first] at woken
  | requested => exact .of_same rfl
  | cancelled orchestrator next retires =>
    obtain ⟨told, events, stops⟩ := retires.events
    exact mute_of_told events fun event member _ _ _ same => by
      cases same
      exact stops _ member
  | selected => exact .of_same rfl
  | cleared orchestrator notify =>
    unfold clearCacheFor
    dsimp only
    split
    · have cleared : Mute engine (engine.clearCache orchestrator) := .of_same rfl
      exact cleared.trans (mute_emit _ _ fun _ _ _ same => Event.noConfusion same)
    · exact .of_same rfl
  | aside move next silent => exact .of_same silent.silent_events

/-! One turn of a task. -/

theorem Bound.later {move : Move} {activity : Activity Phase} (timely : Timely new last)
    (bound : Bound env engine move new task activity run) :
    Bound env engine move last task activity run := by
  cases bound with
  | asked asked => exact .asked asked
  | stays found unwoken known phase waiting => exact .stays found unwoken known phase waiting
  | unwinds found watch timedOut woken known debounces guarded passed phase =>
    exact .unwinds found watch timedOut woken known debounces guarded passed phase
  | debounces o watch waiter begun found delayed phase waits punctual timed =>
    obtain ⟨timer, member, mine⟩ := timed
    exact .debounces o watch waiter begun found delayed phase waits (timely.punctual punctual)
      ⟨timer, timely.timers timer member, mine⟩

/-- What the turn of a task comes to before its verdict is carried out. -/
structure Proceeds (env : Environment) (engine : Engine) (task : Nat) (step : Step) : Prop where
  asks : Mute engine step.1 ∨ ∃ run, engine.Asking env run ∧ Asks run engine.loop.now engine step.1
  bound : ∀ (target : Nat) (found : Activity Phase) (run : Run), step.2 = .wait target found.phase →
    found.waitingFor = some target → found.phase.run? = some run →
    Bound env engine .turn step.1 task found run

theorem Proceeds.of_mute (mute : Mute engine step.1) (asked : step.2.Asked) :
    Proceeds env engine task step :=
  ⟨Or.inl mute, fun target found _ waits _ _ => .asked (asked target found.phase waits)⟩

/-- The loop has only woken the task. -/
structure Woke (engine awake : Engine) : Prop where
  mute : Mute engine awake
  now : awake.loop.now = engine.loop.now
  isDone : ∀ id, awake.loop.isDone id = engine.loop.isDone id
  isLive : ∀ run, awake.isLive run = engine.isLive run

theorem woke_wakeFirst (engine : Engine) (rest : List Handle) (task : Nat) (phase : Phase) :
    Woke engine { engine with loop := engine.loop.wakeFirst rest task phase } :=
  ⟨.of_same rfl, rfl, engine.loop.isDone_wakeFirst rest task phase, fun _ => rfl⟩

theorem Goes.proceeds {awake : Engine} {activity : Activity Phase} (woke : Woke engine awake)
    (woken : engine.woken? = some task) (known : engine.loop.Unfinished task activity)
    (goes : Goes run awake activity.phase (engine.incoming activity) step) :
    Proceeds env engine task step := by
  cases goes with
  | onward mute asked => exact .of_mute (woke.mute.trans mute) asked
  | unwinds watch waiter timedOut debounces guarded passed mute waits =>
    refine ⟨Or.inl (woke.mute.trans mute), fun target found other waits' _ works => ?_⟩
    have phase : found.phase = .unwinding watch timedOut (some run) :=
      (Verdict.wait.inj (waits.symm.trans waits')).2.symm
    obtain rfl : run = other := by
      rw [phase] at works
      exact Option.some.inj works
    exact .unwinds activity watch timedOut woken known debounces (woke.isDone watch ▸ guarded) passed phase
  | asks watch unwinds live asks asked =>
    have asking : engine.Asking env run :=
      .late task watch activity woken known unwinds (woke.isLive run ▸ live)
    exact ⟨Or.inr ⟨run, asking, woke.mute.asks (woke.now ▸ asks)⟩,
      fun target found _ waits _ _ => .asked (asked target found.phase waits)⟩

theorem Begins.proceeds {awake : Engine} {o : Orchestrator} (woke : Woke engine awake)
    (begun : run ∈ engine.entering? env .turn)
    (found : engine.orchestrators[run.orchestrator]? = some o)
    (begins : Begins run o.settings.delay awake step) : Proceeds env engine task step := by
  cases begins with
  | onward mute asked => exact .of_mute (woke.mute.trans mute) asked
  | debounces watch waiter delayed mute waits punctual timed =>
    refine ⟨Or.inl (woke.mute.trans mute), fun target activity other waits' waiting works => ?_⟩
    obtain ⟨rfl, phase⟩ := Verdict.wait.inj (waits.symm.trans waits')
    obtain rfl : run = other := by
      rw [← phase] at works
      exact Option.some.inj works
    exact .debounces o watch waiter begun found delayed phase.symm waiting (woke.now ▸ punctual) timed
  | asks undelayed asks asked =>
    have asking : engine.Asking env run := .atOnce o begun found undelayed
    exact ⟨Or.inr ⟨run, asking, woke.mute.asks (woke.now ▸ asks)⟩,
      fun target activity _ waits _ _ => .asked (asked target activity.phase waits)⟩

theorem proceeds_of_woken (env : Environment) (coherent : engine.Coherent touched none)
    (woken : engine.woken? = some task) {rest : List Handle}
    (first : engine.loop.ready = .wake task :: rest) {activity : Activity Phase}
    (known : engine.loop.Unfinished task activity) :
    Proceeds env engine task
      (({ engine with loop := engine.loop.wakeFirst rest task activity.phase } : Engine).resume env
        activity.phase (engine.incoming activity)) := by
  have woke := woke_wakeFirst engine rest task activity.phase
  have awake := coherent.wake first known
  cases resumed_resume env coherent first known with
  | plays run works played => exact (goes_resume env works _ _).proceeds woke woken known
  | begins orchestrator o run starts wanted found mine newest succeeds opened entered =>
    obtain ⟨document, position, start, rfl⟩ := entered
    have entering : engine.entering? env .turn =
        engine.enters? env activity.phase (engine.incoming activity) := by
      simp [entering?, woken, known.1]
    cases comes : engine.incoming activity with
    | cancelled => exact absurd comes wanted
    | failed failure =>
      rw [start] at woke ⊢
      exact .of_mute woke.mute (Verdict.asked_done _)
    | value v =>
      have begun : Run.entering env o.settings orchestrator engine.requests.length document position ∈
          engine.entering? env .turn := by
        rw [entering, start, comes]
        simp [enters?, show engine.orchestrators[orchestrator]? = some o from found]
      have begins := begins_startCompletion env awake found document position
      rw [start] at woke begins ⊢
      exact begins.proceeds woke begun found
  | absent orchestrator starts wanted nowhere same =>
    rw [same]
    obtain ⟨told, events, stops⟩ := (retires_cancelCurrent awake orchestrator).events
    refine .of_mute (woke.mute.trans (mute_of_told events ?_)) (Verdict.asked_done _)
    intro event member _ _ _ same
    cases same
    exact stops _ member
  | assists idle unstarted assists =>
    obtain ⟨told, events, recorded⟩ := assists.aside.events
    refine ⟨Or.inl (woke.mute.trans (mute_of_told events ?_)), fun target found run waits _ works => ?_⟩
    · intro event member _ _ _ same
      cases same
      exact recorded _ member
    · cases (Phase.run?_of_helps (assists.helps target _ waits)).symm.trans works

theorem courses_of_woken (env : Environment) (coherent : engine.Coherent touched none)
    (woken : engine.woken? = some task) : Courses env engine .turn (engine.apply env .turn) := by
  obtain ⟨going, rest, first⟩ := woken?_eq_some_iff.mp woken
  obtain ⟨activity, known, -⟩ := Loop.Sound.wake coherent.sound first
  obtain ⟨rest', first', same⟩ := turn_of_woken env coherent woken known
  cases first.symm.trans first'
  obtain ⟨runner, runs⟩ := runner_of_woken env coherent first known
  obtain ⟨asks, bound⟩ := proceeds_of_woken env coherent woken first known
  have frame : Mute _ (engine.apply env .turn) := .of_same (same ▸ (conclude_frame task _).2.2)
  refine ⟨?_, fun other found run known' works => ?_⟩
  · rcases asks with mute | ⟨run, asking, asks⟩
    · exact Or.inl (mute.trans frame)
    · exact Or.inr ⟨run, rfl, asking, asks.mute frame⟩
  · by_cases here : other = task
    · subst here
      obtain ⟨target, waits, waiting⟩ := activity_conclude runs (same ▸ known')
      exact same ▸ (bound target found run waits waiting works).later (timely_conclude runs)
    · refine bound_of_unwoken env coherent (fun _ woken' => here ?_) known' works
      exact Option.some.inj (woken'.symm.trans woken)

theorem courses_apply (env : Environment) (coherent : engine.Coherent touched none) (move : Move) :
    Courses env engine move (engine.apply env move) := by
  by_cases woken : move = .turn ∧ ∃ task, engine.woken? = some task
  · obtain ⟨rfl, task, woken⟩ := woken
    exact courses_of_woken env coherent woken
  · have unwoken (task : Nat) (turns : move = .turn) : engine.woken? ≠ some task :=
      fun given => woken ⟨turns, task, given⟩
    refine ⟨Or.inl (mute_of_unwoken env coherent fun turns => ?_), fun task activity run known works => ?_⟩
    · exact Option.eq_none_iff_forall_ne_some.mpr fun task => unwoken task turns
    · exact bound_of_unwoken env coherent (unwoken task) known works

end Engine

end InlineCompletion
