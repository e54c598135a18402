import InlineCompletion.Proofs.Engine.Entries
import InlineCompletion.Proofs.Engine.Tame

/-!
How a completion fares in a turn of its task: it begins, it goes on with its debounce, or it goes on with
its call. What it stores it also ends with, and a completion without a key leaves the caches as they are.
-/

namespace InlineCompletion

/-- Everything that was stored, by orchestrator, request and key. -/
def storings (events : List Event) : List (Nat × Nat × Text) :=
  events.filterMap fun
    | .stored id request key => some (id, request, key)
    | _ => none

theorem storings_append (events told : List Event) :
    storings (events ++ told) = storings events ++ storings told :=
  List.filterMap_append ..

theorem mem_storings {events : List Event} {id request : Nat} {key : Text} :
    (id, request, key) ∈ storings events ↔ .stored id request key ∈ events := by
  unfold storings
  rw [List.mem_filterMap]
  constructor
  · rintro ⟨event, member, same⟩
    cases event with
    | stored => cases same; exact member
    | recorded | asked | consulted | notified | stoppedCall | stoppedStream => cases same
  · exact fun member => ⟨_, member, rfl⟩

theorem storings_eq_nil {events : List Event} (none : ∀ id request key, .stored id request key ∉ events) :
    storings events = [] := by
  refine List.eq_nil_iff_forall_not_mem.mpr fun ⟨id, request, key⟩ member => ?_
  exact none id request key (mem_storings.mp member)

namespace Engine

variable {engine old new : Engine} {env : Environment} {run : Run} {touched : Nat → Prop} {task : Nat}
  {activity : Activity Phase} {phase : Phase} {outcome : Outcome} {step : Step}

/-- One turn of the task of a completion. -/
inductive Fares (env : Environment) (old : Engine) (phase : Phase) (outcome : Outcome) (run : Run)
    (step : Step) : Prop where
  | enters (o : Orchestrator) (new : Engine) (begun : run ∈ old.enters? env phase outcome)
    (found : old.orchestrators[run.orchestrator]? = some o) (succeeds : Succeeds run.orchestrator o old new)
    (now : new.loop.now = old.loop.now) (enters : Enters env run o.settings o.cache new step)
  | weighs (works : phase.run? = some run) (unasked : phase.asked = false)
    (weighs : Weighs env run old (old.debounced? phase outcome) step)
  | receives (works : phase.run? = some run) (asked : phase.asked = true)
    (receives : Receives env run old (old.read? phase outcome) (old.called? phase outcome) step)

/-- The task that runs works for the request, or begins to. -/
def Serves (engine : Engine) (env : Environment) (task : Nat) (run : Run) : Prop :=
  engine.woken? = some task ∧ (engine.runOf task = some run ∨ engine.entering? env .turn = some run)

/-- Nothing but a cancellation comes to a task before it starts. -/
theorem Fits.incoming_of_start (fits : engine.Fits touched none task activity)
    (starts : activity.phase.starts? ≠ none) (wanted : engine.incoming activity ≠ .cancelled) :
    engine.incoming activity = .value .nothing := by
  cases fits with
  | start job phase internal idle =>
    unfold incoming at wanted ⊢
    split
    · next requested => exact absurd (if_pos requested) wanted
    · rw [idle]
      rfl
  | watching phase | answering _ phase | pulling _ phase | debouncing _ _ phase | unwinding _ _ _ phase
  | calling _ _ phase | reading _ _ _ _ _ phase | closing _ _ _ _ phase =>
    rw [phase] at starts
    exact absurd rfl starts

theorem fares_resume (env : Environment) (coherent : engine.Coherent touched none) {rest : List Handle}
    (first : engine.loop.ready = .wake task :: rest) (known : engine.loop.Unfinished task activity)
    (mine : activity.phase.run? = some run ∨
      run ∈ engine.enters? env activity.phase (engine.incoming activity)) :
    Fares env { engine with loop := engine.loop.wakeFirst rest task activity.phase } activity.phase
      (engine.incoming activity) run
      (({ engine with loop := engine.loop.wakeFirst rest task activity.phase } : Engine).resume env
        activity.phase (engine.incoming activity)) := by
  have fits := coherent.fits task activity known nofun
  have awake := coherent.wake first known
  rcases mine with works | begun
  · have there (id : Nat) (member : .stream id ∈ activity.phase.belongings) : ∃ stream,
        ({ engine with loop := engine.loop.wakeFirst rest task activity.phase } : Engine).streams[id]? =
          some stream := fits.there member
    cases asked : activity.phase.asked with
    | false => exact .weighs works asked (weighs_resume env works asked _)
    | true => exact .receives works asked (receives_resume env works asked there _)
  · obtain ⟨wanted, o, starts, found, -⟩ := starts?_of_mem_enters? begun
    have value := fits.incoming_of_start (by rw [starts]; nofun) wanted
    generalize engine.incoming activity = outcome at *
    generalize activity.phase = phase at *
    unfold enters? at begun
    split at begun
    · next orchestrator document position =>
      rw [if_neg wanted] at begun
      obtain ⟨o', found', rfl⟩ := Option.map_eq_some_iff.mp begun
      subst value
      refine .enters o' _ ?_ found' (succeeds_beginRequest awake found').2
        (tallied_beginRequest _ orchestrator).timely.now
          (enters_startCompletion env awake found' document position)
      simp only [enters?, if_neg wanted, found', Option.map_some]
      rfl
    · cases begun

theorem Serves.mine (serves : engine.Serves env task run) (known : engine.loop.Unfinished task activity) :
    activity.phase.run? = some run ∨ run ∈ engine.enters? env activity.phase (engine.incoming activity) := by
  obtain ⟨woken, works | begun⟩ := serves
  · obtain ⟨found, known', works⟩ := runOf_eq_some_iff.mp works
    cases known.unique known'
    exact Or.inl works
  · obtain ⟨other, woken', rest⟩ := Option.bind_eq_some_iff.mp begun
    cases woken.symm.trans woken'
    obtain ⟨found, there, enters⟩ := Option.bind_eq_some_iff.mp rest
    cases there.symm.trans known.1
    exact Or.inr enters

theorem Serves.of_mine (woken : engine.woken? = some task) (known : engine.loop.Unfinished task activity)
    (mine : activity.phase.run? = some run ∨
      run ∈ engine.enters? env activity.phase (engine.incoming activity)) : engine.Serves env task run := by
  refine ⟨woken, mine.imp (fun works => runOf_eq_some_iff.mpr ⟨activity, known, works⟩) fun begun => ?_⟩
  exact Option.bind_eq_some_iff.mpr ⟨task, woken, Option.bind_eq_some_iff.mpr ⟨activity, known.1, begun⟩⟩

/-- One turn of the task that serves a request. -/
theorem fares_turn (env : Environment) (coherent : engine.Coherent touched none)
    (serves : engine.Serves env task run) : ∃ activity rest step, engine.loop.Unfinished task activity ∧
      engine.loop.ready = .wake task :: rest ∧ engine.apply env .turn = conclude task step ∧
      (∃ runner, step.1.loop.Unfinished task runner) ∧
      Fares env { engine with loop := engine.loop.wakeFirst rest task activity.phase } activity.phase
        (engine.incoming activity) run step := by
  obtain ⟨-, ready, first⟩ := woken?_eq_some_iff.mp serves.1
  obtain ⟨activity, known, -⟩ := Loop.Sound.wake coherent.sound first
  obtain ⟨rest, first, same⟩ := turn_of_woken env coherent serves.1 known
  exact ⟨activity, rest, _, known, first, same, runner_of_woken env coherent first known,
    fares_resume env coherent first known (serves.mine known)⟩

/-! What a completion stores. -/

/-- A step stores nothing, or else the completion that its task ends with. -/
inductive Keeps (run : Run) (old : Engine) (step : Step) : Prop where
  | nothing (same : storings step.1.events = storings old.events)
  | completion (completion key : Text) (keyed : run.key = some key)
    (told : storings step.1.events = storings old.events ++ [(run.orchestrator, run.request, key)])
    (ends : step.2 = .done (.value (run.insertion completion)))
    (kept : ∀ settings entries entry, step.1.stockOf run.orchestrator = some (settings, entries) →
      (key, entry) ∈ entries → entry.completion = completion)

theorem Keeps.of_same (same : storings new.events = storings old.events) (keeps : Keeps run new step) :
    Keeps run old step := by
  cases keeps with
  | nothing same' => exact .nothing (same'.trans same)
  | completion completion key keyed told ends kept =>
    exact .completion completion key keyed (same ▸ told) ends kept

theorem storings_emit (engine : Engine) (event : Event)
    (other : ∀ id request key, event ≠ .stored id request key) :
    storings (engine.emit event).events = storings engine.events := by
  unfold emit
  rw [storings_append, storings_eq_nil fun id request key member =>
    other id request key (List.mem_singleton.mp member).symm, List.append_nil]

theorem stockOf_of_orchestrators (same : new.orchestrators = old.orchestrators) (id : Nat) :
    new.stockOf id = old.stockOf id := by
  unfold stockOf
  rw [same]

theorem events_endRun (engine : Engine) (run : Run) (outcome : Outcome) :
    (engine.endRun run outcome).1.events = engine.events := by
  unfold endRun
  dsimp only
  split <;> rfl

theorem stockOf_endRun (engine : Engine) (run : Run) (outcome : Outcome) (id : Nat) :
    (engine.endRun run outcome).1.stockOf id = engine.stockOf id := by
  unfold endRun
  dsimp only
  split
  · show ((engine.orchestrators.modify run.orchestrator _)[id]?).map _ = _
    refine stockOf_modify ?_ id
    exact fun _ => ⟨rfl, rfl⟩
  · rfl

theorem keeps_endRun (engine : Engine) (run : Run) (outcome : Outcome) :
    Keeps run engine (engine.endRun run outcome) :=
  .nothing (congrArg storings (events_endRun engine run outcome))

theorem keeps_acceptReply (env : Environment) (engine : Engine) (run : Run) (raw : Text) :
    Keeps run engine (engine.acceptReply env run raw) := by
  unfold acceptReply
  split
  · exact keeps_endRun ..
  · next o found =>
    dsimp only
    split
    · exact keeps_endRun ..
    · unfold store
      split
      · exact keeps_endRun ..
      · next key keyed =>
        refine .completion _ key keyed ?_ rfl fun settings entries entry seated member => ?_
        · rw [events_endRun]
          exact storings_append ..
        · rw [stockOf_endRun] at seated
          have seated : ((engine.orchestrators.modify run.orchestrator _)[run.orchestrator]?).map _ = _ :=
            seated
          rw [getElem?_modify, if_pos rfl, found] at seated
          cases seated
          rcases Cache.mem_put o.cache key _ _ _ member with ⟨-, apart⟩ | same
          · exact absurd rfl apart
          · cases same
            rfl

theorem keeps_afterCall (env : Environment) (engine : Engine) (run : Run) (outcome : Outcome) :
    Keeps run engine (engine.afterCall env run outcome) := by
  cases outcome with
  | cancelled => exact keeps_endRun ..
  | failed failure =>
    unfold afterCall
    dsimp only
    split
    · exact keeps_endRun ..
    · split
      · exact keeps_endRun ..
      · exact (keeps_endRun ..).of_same (storings_emit engine (.notified (.failed failure)) nofun)
  | value v =>
    unfold afterCall
    dsimp only
    split
    · exact keeps_acceptReply ..
    · exact keeps_endRun ..

/-- Before its call a completion stores nothing. -/
theorem Decides.storings (decides : Decides env run old outcome step) :
    storings step.1.events = storings old.events := by
  cases decides with
  | asks o call new target phase passed live found selected silent =>
    exact (congrArg _ silent.silent_events).trans
      (storings_emit (old.setStage run.orchestrator .generating) _ nofun)
  | unselected =>
    rw [events_endRun]
    exact storings_emit old (.notified .noModel) nofun
  | stops => rw [events_endRun]

theorem storings_lookUp (env : Environment) (engine : Engine) (run : Run) (cache : Cache Float) :
    storings (engine.lookUp env run cache).2.events = storings engine.events := by
  unfold lookUp
  split
  · rfl
  · exact storings_emit engine _ nofun

theorem Enters.storings {settings : Settings} {cache : Cache Float}
    (enters : Enters env run settings cache old step) : storings step.1.events = storings old.events := by
  have looked := storings_lookUp env old run cache
  cases enters with
  | hit | overflows => rw [events_endRun, looked]
  | waits missed fits delayed new waiter watch silent => exact (congrArg _ silent.silent_events).trans looked
  | decides missed fits undelayed step decides => exact decides.storings.trans looked

theorem Succeeds.storings {orchestrator : Nat} {o : Orchestrator}
    (succeeds : Succeeds orchestrator o old new) :
    storings new.events = storings old.events := by
  obtain ⟨told, events, stops⟩ := succeeds.events
  rw [events, storings_append, storings_eq_nil fun id request key member => stops _ member, List.append_nil]

/-- Only a completion that has been under way stores anything. -/
theorem Fares.keeps (fares : Fares env old phase outcome run step) :
    storings step.1.events = storings old.events ∨ phase.run? = some run ∧ Keeps run old step := by
  cases fares with
  | enters o new begun found succeeds now enters => exact Or.inl (enters.storings.trans succeeds.storings)
  | weighs works unasked weighs =>
    generalize old.debounced? phase outcome = answer at weighs
    cases weighs with
    | waits new target watch timedOut silent => exact Or.inl (congrArg _ silent.silent_events)
    | decides answer step decides => exact Or.inl decides.storings
  | receives works asked receives =>
    generalize old.read? phase outcome = read at receives
    generalize old.called? phase outcome = called at receives
    cases receives with
    | waits new target phase silent => exact Or.inl (congrArg _ silent.silent_events)
    | ended new outcome silent =>
      exact Or.inr ⟨works, (keeps_afterCall ..).of_same (congrArg _ silent.silent_events)⟩

/-- A move stores nothing, or else the completion with which a task ends that works for a request. -/
inductive Stores (old new : Engine) : Prop where
  | nothing (same : storings new.events = storings old.events)
  | completion (task : Nat) (author : Run) (completion key : Text) (works : old.runOf task = some author)
    (keyed : author.key = some key)
    (told : storings new.events = storings old.events ++ [(author.orchestrator, author.request, key)])
    (returned : new.loop.outcome? task = some (.value (author.insertion completion)))
    (kept : ∀ settings entries entry, new.stockOf author.orchestrator = some (settings, entries) →
      (key, entry) ∈ entries → entry.completion = completion)

theorem Stores.of_told {told : List Event} (events : new.events = old.events ++ told)
    (unstored : ∀ id request key, .stored id request key ∉ told) : Stores old new :=
  .nothing (by rw [events, storings_append, storings_eq_nil unstored, List.append_nil])

theorem Stores.of_aside {tells : Event → Prop} (aside : Aside tells old new)
    (other : ∀ id request key, ¬tells (.stored id request key)) : Stores old new := by
  obtain ⟨told, events, allowed⟩ := aside.events
  exact .of_told events fun id request key member => other id request key (allowed _ member)

theorem Stores.of_retires {orchestrator : Nat} (retires : Retires orchestrator old new) : Stores old new := by
  obtain ⟨told, events, stops⟩ := retires.events
  exact .of_told events fun id request key member => stops _ member

theorem stores_turn (env : Environment) (coherent : engine.Coherent touched none)
    (woken : engine.woken? = some task) : Stores engine (engine.apply env .turn) := by
  obtain ⟨-, rest, first⟩ := woken?_eq_some_iff.mp woken
  obtain ⟨activity, known, -⟩ := Loop.Sound.wake coherent.sound first
  obtain ⟨rest', first', same⟩ := turn_of_woken env coherent woken known
  cases first.symm.trans first'
  obtain ⟨runner, runs⟩ := runner_of_woken env coherent first known
  obtain ⟨orchestrators, -, events⟩ := conclude_frame task (({ engine with
    loop := engine.loop.wakeFirst rest task activity.phase } : Engine).resume env activity.phase
      (engine.incoming activity))
  rw [same]
  by_cases serves : ∃ run, activity.phase.run? = some run ∨
      run ∈ engine.enters? env activity.phase (engine.incoming activity)
  · obtain ⟨run, mine⟩ := serves
    have fares := fares_resume env coherent first known mine
    generalize Engine.resume _ env activity.phase (engine.incoming activity) = step at *
    rcases fares.keeps with none | ⟨works, keeps⟩
    · exact .nothing ((congrArg _ events).trans none)
    cases keeps with
    | nothing none => exact .nothing ((congrArg _ events).trans none)
    | completion completion key keyed told ends kept =>
      obtain ⟨last, verdict⟩ := step
      subst ends
      refine .completion task run completion key (runOf_eq_some_iff.mpr ⟨activity, known, works⟩) keyed
        ((congrArg _ events).trans told) (outcome?_conclude runs _) fun settings entries entry seated => ?_
      exact kept settings entries entry ((stockOf_of_orchestrators orchestrators _).symm.trans seated)
  · have resumed := resumed_resume env coherent first known
    have awake := coherent.wake first known
    generalize Engine.resume _ env activity.phase (engine.incoming activity) = step at *
    cases resumed with
    | plays run works => exact absurd ⟨run, Or.inl works⟩ serves
    | begins orchestrator o run starts wanted found mine newest succeeds opened entered =>
      obtain ⟨document, position, phase, placed⟩ := entered
      refine absurd ⟨run, Or.inr ?_⟩ serves
      simp only [enters?, phase, if_neg wanted]
      exact Option.map_eq_some_iff.mpr ⟨o, found, placed.symm⟩
    | absent orchestrator starts wanted nowhere same =>
      obtain ⟨told, events', stops⟩ := (retires_cancelCurrent awake orchestrator).events
      subst same
      exact .of_told (events.trans events') fun id request key member => stops _ member
    | assists idle unstarted assists =>
      obtain ⟨told, events', allowed⟩ := assists.aside.events
      exact .of_told (events.trans events') fun id request key member => allowed _ member

theorem stores_apply (env : Environment) (coherent : engine.Coherent touched none) (move : Move) :
    Stores engine (engine.apply env move) := by
  by_cases woken : move = .turn ∧ ∃ task, engine.woken? = some task
  · obtain ⟨rfl, task, woken⟩ := woken
    exact stores_turn env coherent woken
  have moved := moved_apply env coherent move
  generalize engine.apply env move = next at *
  cases moved with
  | turned next turned =>
    cases turned with
    | idle | released => exact .nothing rfl
    | woken task rest activity awake going first =>
      exact absurd ⟨rfl, task, woken?_eq_some_iff.mpr ⟨going, rest, first⟩⟩ woken
  | requested | selected => exact .nothing rfl
  | cancelled orchestrator next retires => exact .of_retires retires
  | cleared orchestrator notify =>
    unfold clearCacheFor
    dsimp only
    split
    · exact .nothing (storings_emit (engine.clearCache orchestrator) _ nofun)
    · exact .nothing rfl
  | aside move next silent => exact .of_aside silent fun _ _ _ => False.elim

/-! A completion without a key. -/

theorem stockOf_setStage (engine : Engine) (orchestrator : Nat) (stage : Stage) (id : Nat) :
    (engine.setStage orchestrator stage).stockOf id = engine.stockOf id := by
  show ((engine.orchestrators.modify orchestrator _)[id]?).map _ = _
  refine stockOf_modify ?_ id
  exact fun _ => ⟨rfl, rfl⟩

theorem stockOf_afterCall (env : Environment) (engine : Engine) (unkeyed : run.key = none) (outcome : Outcome)
    (id : Nat) : (engine.afterCall env run outcome).1.stockOf id = engine.stockOf id := by
  cases outcome with
  | cancelled => exact stockOf_endRun ..
  | failed failure =>
    unfold afterCall
    dsimp only
    split
    · exact stockOf_endRun ..
    · split <;> exact stockOf_endRun ..
  | value v =>
    unfold afterCall
    dsimp only
    split
    · unfold acceptReply
      split
      · exact stockOf_endRun ..
      · dsimp only
        unfold store
        rw [unkeyed]
        split <;> exact stockOf_endRun ..
    · exact stockOf_endRun ..

theorem Decides.stockOf (decides : Decides env run old outcome step) (id : Nat) :
    step.1.stockOf id = old.stockOf id := by
  cases decides with
  | asks o call new target phase passed live found selected silent =>
    exact (stockOf_of_orchestrators silent.orchestrators id).trans (stockOf_setStage old _ _ id)
  | unselected => exact (stockOf_endRun ..).trans rfl
  | stops => exact stockOf_endRun ..

theorem Enters.stockOf {settings : Settings} {cache : Cache Float}
    (enters : Enters env run settings cache old step) (unkeyed : run.key = none) (id : Nat) :
    step.1.stockOf id = old.stockOf id := by
  have looked : (old.lookUp env run cache).2 = old := by
    unfold lookUp
    rw [unkeyed]
  cases enters with
  | hit | overflows => rw [stockOf_endRun, looked]
  | waits missed fits delayed new waiter watch silent =>
    rw [looked] at silent
    exact (stockOf_of_orchestrators silent.orchestrators id).trans (stockOf_setStage ..)
  | decides missed fits undelayed step decides =>
    rw [looked] at decides
    exact (decides.stockOf id).trans (stockOf_setStage ..)

theorem Fares.stockOf (fares : Fares env old phase outcome run step) (unkeyed : run.key = none) (id : Nat) :
    step.1.stockOf id = old.stockOf id := by
  cases fares with
  | enters o new begun found succeeds now enters =>
    refine (enters.stockOf unkeyed id).trans ?_
    unfold Engine.stockOf
    rw [succeeds.orchestrators]
    refine stockOf_modify ?_ id
    exact fun _ => ⟨rfl, rfl⟩
  | weighs works unasked weighs =>
    generalize old.debounced? phase outcome = answer at weighs
    cases weighs with
    | waits new target watch timedOut silent => exact stockOf_of_orchestrators silent.orchestrators id
    | decides answer step decides => exact decides.stockOf id
  | receives works asked receives =>
    generalize old.read? phase outcome = read at receives
    generalize old.called? phase outcome = called at receives
    cases receives with
    | waits new target phase silent => exact stockOf_of_orchestrators silent.orchestrators id
    | ended new outcome silent =>
      exact (stockOf_afterCall env new unkeyed outcome id).trans
        (stockOf_of_orchestrators silent.orchestrators id)

/-- A request without a key leaves every cache as it is, with the order of its entries. -/
theorem stockOf_turn_of_unkeyed (env : Environment) (coherent : engine.Coherent touched none)
    (serves : engine.Serves env task run) (unkeyed : run.key = none) (id : Nat) :
    (engine.apply env .turn).stockOf id = engine.stockOf id := by
  obtain ⟨activity, rest, step, -, -, same, -, fares⟩ := fares_turn env coherent serves
  rw [same, stockOf_of_orchestrators (conclude_frame task step).1]
  exact fares.stockOf unkeyed id

/-! A request that is answered from the cache. -/

theorem lookUp_fst_congr (env : Environment) (run : Run) (cache : Cache Float)
    (now : new.loop.now = old.loop.now) : (new.lookUp env run cache).1 = (old.lookUp env run cache).1 := by
  unfold lookUp
  split
  · rfl
  · rw [now]

end Engine

end InlineCompletion
