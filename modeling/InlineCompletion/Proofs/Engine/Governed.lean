import InlineCompletion.Proofs.Engine.Inversion

/-!
Every completion under way is the current one of its orchestrator, or it was cancelled and its
orchestrator has gone on to a later generation. Whoever writes to an orchestrator keeps that so.
-/

namespace InlineCompletion

/-- The stage tells whether there is a request. -/
def Orchestrator.Staged (o : Orchestrator) : Prop :=
  match o.current with
  | none => o.stage = .idle ∨ o.stage = .done
  | some _ => o.stage = .debouncing ∨ o.stage = .generating

namespace Engine

variable {engine old new : Engine} {env : Environment} {run : Run} {touched : Nat → Prop}
  {running : Option (Nat × Outcome)} {task orchestrator : Nat} {works : Nat → Option Run}

/-- Who works on what is told apart from the loop, as it changes only when a task has run. -/
structure Governed (engine : Engine) (works : Nat → Option Run) : Prop where
  current : ∀ id request generation, engine.tenureOf id = some (some request, generation) →
    engine.markOf request = some (false, generation) ∧
      ∃ task run, works task = some run ∧ run.orchestrator = id ∧ run.request = request
  runs : ∀ task run, works task = some run → ∃ current generation cancelled born,
    engine.tenureOf run.orchestrator = some (current, generation) ∧
      engine.markOf run.request = some (cancelled, born) ∧
      (current = some run.request ∨ cancelled = true ∧ born < generation)
  sole : ∀ task other run run', works task = some run → works other = some run' →
    run.request = run'.request → task = other

/-- More requests do no harm. -/
theorem Governed.of_known (governed : old.Governed works)
    (tenures : ∀ id, new.tenureOf id = old.tenureOf id)
    (marks : ∀ id mark, old.markOf id = some mark → new.markOf id = some mark) :
    new.Governed works where
  current := fun id request generation tenure =>
    (governed.current id request generation (tenures id ▸ tenure)).imp_left (marks request _)
  runs := fun task run mine => by
    obtain ⟨current, generation, cancelled, born, tenure, mark, stands⟩ := governed.runs task run mine
    exact ⟨_, _, _, _, (tenures _).trans tenure, marks _ _ mark, stands⟩
  sole := governed.sole

theorem Governed.kept (governed : old.Governed works) (kept : Kept old new) : new.Governed works :=
  governed.of_known kept.tenures fun id _ mark => (kept.marks id).trans mark

theorem Governed.congr {others : Nat → Option Run} (governed : engine.Governed works)
    (same : ∀ task, others task = works task) : engine.Governed others := by
  rw [funext same]
  exact governed

/-! The current request goes. -/

theorem Retires.tenureOf (retires : Retires orchestrator old new) (id : Nat) : new.tenureOf id =
    if id = orchestrator then (old.tenureOf id).map fun tenure => (none, tenure.2 + 1)
    else old.tenureOf id := by
  unfold Engine.tenureOf
  rw [retires.orchestrators, getElem?_modify]
  split
  · cases old.orchestrators[id]? <;> rfl
  · rfl

theorem current_iff_tenureOf (engine : Engine) (id request : Nat) :
    engine.orchestrators[id]?.bind (·.current) = some request ↔
      ∃ generation, engine.tenureOf id = some (some request, generation) := by
  unfold Engine.tenureOf Orchestrator.tenure
  cases engine.orchestrators[id]? <;> simp

/-- What the retired orchestrator worked on was current or cancelled before; now it is cancelled. -/
theorem Governed.retire (governed : old.Governed works) (retires : Retires orchestrator old new) :
    new.Governed works where
  current := by
    intro id request generation tenure
    rw [retires.tenureOf] at tenure
    split at tenure
    · obtain ⟨_, -, same⟩ := Option.map_eq_some_iff.mp tenure
      cases same
    · next other =>
      obtain ⟨mark, task, run, mine, seat, work⟩ := governed.current id request generation tenure
      refine ⟨?_, task, run, mine, seat, work⟩
      rw [retires.marks, mark]
      -- No other orchestrator has the same request.
      have apart : old.orchestrators[orchestrator]?.bind (·.current) ≠ some request := by
        intro current
        obtain ⟨generation', tenure'⟩ := (current_iff_tenureOf old _ _).mp current
        obtain ⟨-, task', run', mine', seat', work'⟩ :=
          governed.current orchestrator request generation' tenure'
        have same := governed.sole task task' run run' mine mine' (work.trans work'.symm)
        cases (same ▸ mine).symm.trans mine'
        exact other (seat.symm.trans seat')
      simp [apart]
  runs := by
    intro task run mine
    obtain ⟨current, generation, cancelled, born, tenure, mark, stands⟩ := governed.runs task run mine
    rw [retires.tenureOf, retires.marks, tenure, mark]
    split
    · next here =>
      refine ⟨_, _, _, _, rfl, rfl, Or.inr ?_⟩
      rcases stands with rfl | ⟨gone, earlier⟩
      · obtain ⟨mark', -⟩ := governed.current _ _ _ tenure
        cases mark.symm.trans mark'
        have current := (current_iff_tenureOf old _ _).mpr ⟨_, here ▸ tenure⟩
        exact ⟨by simp [current], Int.lt_succ _⟩
      · exact ⟨by simp [gone], Int.lt_trans earlier (Int.lt_succ _)⟩
    · refine ⟨_, _, _, _, rfl, rfl, stands.imp_right fun ⟨gone, earlier⟩ => ⟨?_, earlier⟩⟩
      simp [gone]
  sole := governed.sole

/-! A request comes. -/

theorem Governed.request_lt (governed : engine.Governed works) (mine : works task = some run) :
    run.request < engine.requests.length := by
  obtain ⟨_, _, _, _, -, mark, -⟩ := governed.runs task run mine
  refine Nat.lt_of_not_le fun outside => ?_
  cases mark.symm.trans ((markOf_eq_none_iff engine run.request).mpr outside)

theorem Governed.appoint (governed : old.Governed works) (idle : works task = none)
    {generation : Int} (vacant : old.tenureOf run.orchestrator = some (none, generation))
    (newest : run.request = old.requests.length)
    (tenures : ∀ id, new.tenureOf id =
      if id = run.orchestrator then some (some run.request, generation) else old.tenureOf id)
    (marks : ∀ id, new.markOf id =
      if id = run.request then some (false, generation) else old.markOf id) :
    new.Governed fun other => if other = task then some run else works other := by
  have different {other : Nat} {run' : Run} (mine : works other = some run') :
      run'.request ≠ run.request := newest ▸ Nat.ne_of_lt (governed.request_lt mine)
  have unlike {other : Nat} {run' : Run} (mine : works other = some run') : other ≠ task := by
    intro same
    subst same
    cases idle.symm.trans mine
  refine ⟨fun id request born tenure => ?_, fun other run' mine => ?_, ?_⟩
  · rw [tenures] at tenure
    split at tenure
    · next here =>
      cases tenure
      exact ⟨by rw [marks, if_pos rfl], task, run, if_pos rfl, here.symm, rfl⟩
    · obtain ⟨mark, other, run', mine, seat, work⟩ := governed.current id request born tenure
      refine ⟨?_, other, run', (if_neg (unlike mine)).trans mine, seat, work⟩
      rw [marks, if_neg (work ▸ different mine)]
      exact mark
  · split at mine
    · cases mine
      exact ⟨_, _, _, _, (tenures _).trans (if_pos rfl), (marks _).trans (if_pos rfl), Or.inl rfl⟩
    · obtain ⟨current, generation', cancelled, born, tenure, mark, stands⟩ :=
        governed.runs other run' mine
      rw [tenures, marks, if_neg (different mine), mark]
      split
      · next here =>
        rw [here, vacant] at tenure
        cases tenure
        exact ⟨_, _, _, _, rfl, rfl, Or.inr (stands.resolve_left nofun)⟩
      · exact ⟨_, _, _, _, tenure, rfl, stands⟩
  · intro first second run' run'' mine mine' same
    split at mine <;> split at mine'
    · next here there => exact here.trans there.symm
    · cases mine
      exact absurd same.symm (different mine')
    · cases mine'
      exact absurd same (different mine)
    · exact governed.sole first second run' run'' mine mine' same

/-! The request of a run ends. -/

theorem tenureOf_endRun (engine : Engine) (run : Run) (outcome : Outcome) (id : Nat) :
    (engine.endRun run outcome).1.tenureOf id =
      if id = run.orchestrator ∧ engine.isLive run = true then
        (engine.tenureOf id).map fun tenure => (none, tenure.2)
      else engine.tenureOf id := by
  unfold endRun
  split
  · next live =>
    show ((engine.orchestrators.modify run.orchestrator _)[id]?).map Orchestrator.tenure = _
    rw [getElem?_modify]
    simp only [live, and_true]
    split
    · unfold Engine.tenureOf
      cases engine.orchestrators[id]? <;> rfl
    · rfl
  · next stale => simp [stale]

theorem markOf_endRun (engine : Engine) (run : Run) (outcome : Outcome) (id : Nat) :
    (engine.endRun run outcome).1.markOf id = engine.markOf id := by
  unfold endRun
  split <;> rfl

theorem Governed.isLive_iff (governed : engine.Governed works) (run : Run) :
    engine.isLive run = true ↔
      ∃ generation, engine.tenureOf run.orchestrator = some (some run.request, generation) := by
  rw [isLive_eq]
  constructor
  · intro live
    have current := (Bool.and_eq_true_iff.mp live).1
    cases tenure : engine.tenureOf run.orchestrator with
    | none => simp [tenure] at current
    | some found =>
      obtain ⟨request, generation⟩ := found
      simp only [tenure, Option.any_some, decide_eq_true_eq] at current
      exact ⟨generation, by rw [current]⟩
  · intro given
    obtain ⟨generation, tenure⟩ := given
    obtain ⟨mark, -⟩ := governed.current _ _ _ tenure
    simp [tenure, mark]

theorem Governed.finish (governed : old.Governed works) (mine : works task = some run)
    (outcome : Outcome) : (old.endRun run outcome).1.Governed
      fun other => if other = task then none else works other := by
  refine ⟨fun id request generation tenure => ?_, fun other run' works' => ?_, ?_⟩
  · rw [tenureOf_endRun] at tenure
    rw [markOf_endRun]
    split at tenure
    · obtain ⟨_, -, same⟩ := Option.map_eq_some_iff.mp tenure
      cases same
    · next apart =>
      obtain ⟨mark, other, run', mine', seat, work⟩ := governed.current id request generation tenure
      refine ⟨mark, other, run', ?_, seat, work⟩
      rw [if_neg]
      · exact mine'
      · intro same
        subst same
        cases mine.symm.trans mine'
        exact apart ⟨seat.symm, (governed.isLive_iff run).mpr ⟨generation, by rw [seat, work, tenure]⟩⟩
  · split at works'
    · cases works'
    · next unlike =>
      obtain ⟨current, generation, cancelled, born, tenure, mark, stands⟩ :=
        governed.runs other run' works'
      rw [tenureOf_endRun, markOf_endRun, tenure, mark]
      split
      · next here =>
        refine ⟨_, _, _, _, rfl, rfl, Or.inr (stands.resolve_left ?_)⟩
        intro same
        subst same
        obtain ⟨generation', tenure'⟩ := (governed.isLive_iff run).mp here.2
        rw [here.1] at tenure
        have same : run'.request = run.request ∧ generation = generation' := by
          simpa using tenure.symm.trans tenure'
        exact unlike (governed.sole other task run' run works' mine same.1)
      · exact ⟨_, _, _, _, rfl, rfl, stands⟩
  · intro first second run' run'' mine' mine'' same
    split at mine'
    · cases mine'
    · split at mine''
      · cases mine''
      · exact governed.sole first second run' run'' mine' mine'' same

/-! The stages. -/

theorem current_of_isLive (live : engine.isLive run = true) {o : Orchestrator}
    (found : engine.orchestrators[run.orchestrator]? = some o) : o.current = some run.request := by
  have current := (Bool.and_eq_true_iff.mp live).1
  unfold isCurrent at current
  simpa [found] using current

/-- A deed enters a stage only for its live request. -/
theorem Deed.staged (deed : Deed env run old new) {id : Nat}
    (staged : ∀ o, old.orchestrators[id]? = some o → o.Staged) (o : Orchestrator)
    (found : new.orchestrators[id]? = some o) : o.Staged := by
  have modified {f : Orchestrator → Orchestrator}
      (same : ∀ o, old.orchestrators[run.orchestrator]? = some o → o.Staged → (f o).Staged)
      (found : (old.orchestrators.modify run.orchestrator f)[id]? = some o) : o.Staged := by
    rw [getElem?_modify] at found
    split at found
    · next here =>
      obtain ⟨before, known, rfl⟩ := Option.map_eq_some_iff.mp found
      exact same before (here ▸ known) (staged before known)
    · exact staged o found
  cases deed with
  | aside silent => exact staged o (silent.orchestrators ▸ found)
  | enters stage live busy =>
    refine modified (fun before known _ => ?_) found
    unfold Orchestrator.Staged
    simp only [current_of_isLive live known]
    exact busy
  | notifies | asks => exact staged o found
  | consults =>
    unfold lookUp at found
    split at found
    · exact staged o found
    · dsimp only at found
      refine modified (fun before _ staged => ?_) found
      exact staged
  | stores =>
    unfold store at found
    split at found
    · exact staged o found
    · refine modified (fun before _ staged => ?_) found
      exact staged

theorem Deeds.staged (deeds : Deeds env run old new) {id : Nat}
    (staged : ∀ o, old.orchestrators[id]? = some o → o.Staged) (o : Orchestrator)
    (found : new.orchestrators[id]? = some o) : o.Staged := by
  induction deeds generalizing o with
  | refl => exact staged o found
  | tail _ deed ih => exact deed.staged ih o found

theorem staged_endRun {outcome : Outcome} {id : Nat}
    (staged : ∀ o, engine.orchestrators[id]? = some o → o.Staged) (o : Orchestrator)
    (found : (engine.endRun run outcome).1.orchestrators[id]? = some o) : o.Staged := by
  unfold endRun at found
  split at found
  · have found : (engine.orchestrators.modify run.orchestrator _)[id]? = some o := found
    rw [getElem?_modify] at found
    split at found
    · obtain ⟨before, -, rfl⟩ := Option.map_eq_some_iff.mp found
      exact Or.inr rfl
    · exact staged o found
  · exact staged o found

theorem staged_endRun_of_live {outcome : Outcome} (live : engine.isLive run = true)
    (o : Orchestrator)
    (found : (engine.endRun run outcome).1.orchestrators[run.orchestrator]? = some o) : o.Staged := by
  unfold endRun at found
  rw [if_pos live] at found
  have found : (engine.orchestrators.modify run.orchestrator _)[run.orchestrator]? = some o := found
  rw [getElem?_modify, if_pos rfl] at found
  obtain ⟨before, -, rfl⟩ := Option.map_eq_some_iff.mp found
  exact Or.inr rfl

theorem Played.staged {step : Step} (played : Played env run old step) {id : Nat}
    (staged : ∀ o, old.orchestrators[id]? = some o → o.Staged) (o : Orchestrator)
    (found : step.1.orchestrators[id]? = some o) : o.Staged := by
  cases played with
  | waits new target phase deeds => exact Deeds.staged deeds staged o found
  | ends new result deeds => exact staged_endRun (Deeds.staged deeds staged) o found

/-! One turn. -/

theorem Played.governed {step : Step} (played : Played env run old step)
    (governed : old.Governed works) (mine : works task = some run)
    (others : ∀ other, other ≠ task → works other = old.runOf other) {activity : Activity Phase}
    (known : old.loop.Unfinished task activity) :
    (conclude task step).Governed (conclude task step).runOf := by
  have kept (step : Step) : Kept step.1 (conclude task step) := by
    obtain ⟨orchestrators, requests, -⟩ := conclude_frame task step
    exact ⟨tenureOf_of_orchestrators orchestrators, markOf_of_requests requests⟩
  cases played with
  | waits new target phase deeds runs =>
    have steady := Deeds.steady deeds
    obtain ⟨found, known', -⟩ := steady.after task activity known
    refine ((governed.kept (Deeds.kept deeds)).kept (kept (new, .wait target phase))).congr
      fun other => ?_
    rw [runOf_conclude_wait known', steady.runOf]
    split
    · next same => rw [same, mine, runs]
    · next unlike => exact (others other unlike).symm
  | ends new result deeds dull =>
    have steady := (Deeds.steady deeds).trans (steady_endRun new run result)
    obtain ⟨found, known', -⟩ := steady.after task activity known
    have finished := (governed.kept (Deeds.kept deeds)).finish mine result
    refine (finished.kept (kept (new.endRun run result))).congr fun other => ?_
    rw [show new.endRun run result = ((new.endRun run result).1, .done result) from rfl,
      runOf_conclude_done known', steady.runOf]
    split
    · rfl
    · next unlike => exact (others other unlike).symm

theorem Governed.begin (coherent : engine.Coherent touched running) (governed : engine.Governed works)
    (idle : works task = none) {o : Orchestrator}
    (found : engine.orchestrators[orchestrator]? = some o) (mine : run.orchestrator = orchestrator)
    (newest : run.request = engine.requests.length) :
    (engine.beginRequest orchestrator).2.Governed
      fun other => if other = task then some run else works other := by
  have retires := retires_cancelCurrent coherent orchestrator
  obtain ⟨-, succeeds⟩ := succeeds_beginRequest coherent found
  have vacant : (engine.cancelCurrent orchestrator).tenureOf run.orchestrator =
      some (none, o.generation + 1) := by
    rw [retires.tenureOf, if_pos mine, mine]
    simp [tenureOf, found, Orchestrator.tenure]
  refine (governed.retire retires).appoint idle vacant (newest.trans retires.length.symm)
    (fun id => ?_) fun id => ?_
  · rw [retires.tenureOf]
    unfold tenureOf
    rw [succeeds.orchestrators, getElem?_modify, mine]
    split
    · next here =>
      rw [here, found, newest]
      rfl
    · rfl
  · rw [succeeds.marks, retires.marks, newest, found]
    rfl

/-- The stage of the orchestrator is right again when its request has been opened. -/
theorem Opened.staged {step : Step} (opened : Opened env run old step) (live : old.isLive run = true)
    {id : Nat} (others : id ≠ run.orchestrator →
      ∀ o, old.orchestrators[id]? = some o → o.Staged) (o : Orchestrator)
    (found : step.1.orchestrators[id]? = some o) : o.Staged := by
  by_cases mine : id = run.orchestrator
  · subst mine
    cases opened with
    | answered new result deeds =>
      exact staged_endRun_of_live (((Deeds.kept deeds).isLive run).trans live) o found
    | debounced new step deeds played =>
      refine played.staged (fun entered known => ?_) o found
      have live := ((Deeds.kept deeds).isLive run).trans live
      have known : (new.orchestrators.modify run.orchestrator _)[run.orchestrator]? = some entered :=
        known
      rw [getElem?_modify, if_pos rfl] at known
      obtain ⟨before, found, rfl⟩ := Option.map_eq_some_iff.mp known
      unfold Orchestrator.Staged
      simp only [current_of_isLive live found]
      exact Or.inl trivial
  · exact (opened.played live).staged (others mine) o found

/-- Each orchestrator is in order, and so are all who work for it. -/
structure Ruled (engine : Engine) : Prop where
  governed : engine.Governed engine.runOf
  staged : ∀ (id : Nat) (o : Orchestrator), engine.orchestrators[id]? = some o → o.Staged

theorem Phase.run?_of_starts {phase : Phase} (starts : phase.starts? = some orchestrator) :
    phase.run? = none := by
  unfold Phase.starts? at starts
  split at starts
  · rfl
  · cases starts

theorem Ruled.of_same (ruled : old.Ruled) (orchestrators : new.orchestrators = old.orchestrators)
    (marks : ∀ id mark, old.markOf id = some mark → new.markOf id = some mark)
    (works : ∀ task, new.runOf task = old.runOf task) : new.Ruled where
  governed := (ruled.governed.of_known (tenureOf_of_orchestrators orchestrators) marks).congr works
  staged := fun id o found => ruled.staged id o (orchestrators ▸ found)

theorem Phase.run?_of_helps {phase : Phase} (helps : phase.isCompletion = false) :
    phase.run? = none := by
  unfold Phase.isCompletion at helps
  simpa using (Bool.or_eq_false_iff.mp helps).1

theorem runOf_eq_none {activity : Activity Phase} (known : engine.loop.Unfinished task activity)
    (idle : activity.phase.run? = none) : engine.runOf task = none := by
  refine Option.eq_none_iff_forall_ne_some.mpr fun run works => ?_
  obtain ⟨found, unfinished, works⟩ := runOf_eq_some_iff.mp works
  cases known.unique unfinished
  cases idle.symm.trans works

/-- A task without a completion leaves what it does not know of as it is. -/
theorem Ruled.conclude {step : Step} (ruled : old.Ruled) (steady : Steady old step.1)
    (orchestrators : step.1.orchestrators = old.orchestrators)
    (marks : ∀ id mark, old.markOf id = some mark → step.1.markOf id = some mark)
    {activity : Activity Phase} (known : old.loop.Unfinished task activity)
    (idle : activity.phase.run? = none)
    (helps : ∀ target phase, step.2 = .wait target phase → phase.run? = none) :
    (conclude task step).Ruled := by
  obtain ⟨orchestrators', requests', -⟩ := conclude_frame task step
  have idle := runOf_eq_none known idle
  obtain ⟨found, known', -⟩ := steady.after task activity known
  refine ruled.of_same (orchestrators'.trans orchestrators)
    (fun id mark before => (markOf_of_requests requests' id).trans (marks id mark before))
    fun other => ?_
  obtain ⟨new, verdict⟩ := step
  cases verdict with
  | wait target phase =>
    rw [runOf_conclude_wait known', steady.runOf]
    split
    · next same => rw [same, idle, helps target phase rfl]
    · rfl
  | done result =>
    rw [runOf_conclude_done known', steady.runOf]
    split
    · next same => rw [same, idle]
    · rfl

/-- Whoever runs leaves every orchestrator in order. -/
theorem Resumed.ruled {step : Step} {phase : Phase} {outcome : Outcome}
    (resumed : Resumed env old phase outcome step) (ruled : old.Ruled)
    (coherent : old.Coherent touched running) {activity : Activity Phase}
    (known : old.loop.Unfinished task activity) (same : activity.phase = phase) :
    (conclude task step).Ruled := by
  have frame := (conclude_frame task step).1
  cases resumed with
  | plays run works played =>
    have mine : old.runOf task = some run :=
      runOf_eq_some_iff.mpr ⟨activity, known, same ▸ works⟩
    exact ⟨played.governed ruled.governed mine (fun _ _ => rfl) known,
      fun id o found => played.staged (ruled.staged id) o (frame ▸ found)⟩
  | begins orchestrator o run starts wanted found mine newest succeeds opened =>
    have idle := runOf_eq_none known (same ▸ Phase.run?_of_starts starts)
    have begun := ruled.governed.begin coherent idle found mine newest
    have live := succeeds.isLive found mine newest
    obtain ⟨_, known', -⟩ := succeeds.steady.after task activity known
    refine ⟨(opened.played live).governed begun (if_pos rfl) (fun other unlike => ?_) known',
      fun id o found => opened.staged live (fun apart o found => ?_) o (frame ▸ found)⟩
    · rw [if_neg unlike, succeeds.steady.runOf]
    · rw [succeeds.orchestrators, getElem?_modify, if_neg (mine ▸ apart)] at found
      exact ruled.staged id o found
  | absent orchestrator starts wanted nowhere same' =>
    subst same'
    obtain ⟨steady, orchestrators, marks⟩ := beginRequest_of_none coherent nowhere
    exact ruled.conclude steady orchestrators marks known (same ▸ Phase.run?_of_starts starts)
      fun _ _ other => by cases other
  | assists idle unstarted assists =>
    refine ruled.conclude assists.aside.steady assists.aside.orchestrators
      (fun id _ before => (assists.aside.marks id).trans before) known (same ▸ idle)
      fun target phase waits => Phase.run?_of_helps (assists.helps target phase waits)

theorem Ruled.turn (env : Environment) (ruled : engine.Ruled)
    (coherent : engine.Coherent touched none) : ((engine.turn? env).getD engine).Ruled := by
  have turned := turned_turn env coherent
  generalize (engine.turn? env).getD engine = next at *
  cases turned with
  | idle => exact ruled
  | released waiter rest going first =>
    refine ruled.of_same rfl (fun _ _ mark => mark) fun task => runOf_eq_of_iff fun run => ?_
    exact exists_congr fun activity => and_congr_left fun _ =>
      unfinished_release coherent first task activity
  | woken task rest activity awake going first known same =>
    subst same
    have inOrder := inOrder_resume env coherent first known
    have resumed := resumed_resume env coherent first known
    have unfinished := (Loop.unfinished_wakeFirst rest known activity.phase task _).mpr
      (Or.inl ⟨rfl, rfl⟩)
    refine resumed.ruled ?_ (coherent.wake first known) unfinished rfl
    exact ruled.of_same rfl (fun _ _ mark => mark) (runOf_wakeFirst known rest)

/-! A whole run. -/

theorem Ruled.aside {tells : Event → Prop} (ruled : old.Ruled) (aside : Aside tells old new) :
    new.Ruled :=
  ruled.of_same aside.orchestrators (fun id _ mark => (aside.marks id).trans mark) aside.steady.runOf

theorem Ruled.modifyOrchestrator (ruled : engine.Ruled) (id : Nat)
    (f : Orchestrator → Orchestrator) (tenure : ∀ o, (f o).tenure = o.tenure)
    (staged : ∀ o, o.Staged → (f o).Staged) : (engine.modifyOrchestrator id f).Ruled where
  governed := ruled.governed.kept (kept_modifyOrchestrator engine id f tenure)
  staged := fun other o found => by
    have found : (engine.orchestrators.modify id f)[other]? = some o := found
    rw [getElem?_modify] at found
    split at found
    · obtain ⟨before, known, rfl⟩ := Option.map_eq_some_iff.mp found
      exact staged before (ruled.staged other before known)
    · exact ruled.staged other o found

theorem runOf_spawn (engine : Engine) {job : Job} (task : Nat) :
    (engine.spawn job).2.runOf task = engine.runOf task := by
  have spawned (activity : Activity Phase) :
      (engine.loop.spawn (.start job)).2.Unfinished task activity ↔ _ :=
    Loop.unfinished_spawn (.start job) task activity
  refine runOf_eq_of_iff fun run => ⟨?_, ?_⟩
  · intro given
    obtain ⟨activity, unfinished, works⟩ := given
    rcases (spawned activity).mp unfinished with ⟨-, rfl⟩ | unfinished'
    · cases works
    · exact ⟨activity, unfinished', works⟩
  · intro given
    obtain ⟨activity, unfinished, works⟩ := given
    exact ⟨activity, (spawned activity).mpr (Or.inr unfinished), works⟩

theorem Ruled.retire (ruled : old.Ruled) (retires : Retires orchestrator old new) : new.Ruled where
  governed := (ruled.governed.retire retires).congr retires.steady.runOf
  staged := fun id o found => by
    rw [retires.orchestrators, getElem?_modify] at found
    split at found
    · obtain ⟨before, -, rfl⟩ := Option.map_eq_some_iff.mp found
      exact Or.inl rfl
    · exact ruled.staged id o found

theorem Ruled.apply (env : Environment) (ruled : engine.Ruled)
    (coherent : engine.Coherent touched none) (move : Move) : (engine.apply env move).Ruled := by
  have moved := moved_apply env coherent move
  generalize same : engine.apply env move = next at *
  cases moved with
  | turned =>
    subst same
    exact ruled.turn env coherent
  | requested orchestrator document position =>
    exact ruled.of_same rfl (fun _ _ mark => mark) fun task => runOf_spawn engine task
  | cancelled orchestrator next retires => exact ruled.retire retires
  | selected orchestrator model =>
    have selected : (engine.modifyOrchestrator orchestrator fun o =>
        { o with model := Text.trim model }).Ruled :=
      ruled.modifyOrchestrator orchestrator _ (fun _ => rfl) fun _ staged => staged
    exact selected.modifyOrchestrator orchestrator (fun o => { o with cache := o.cache.clear })
      (fun _ => rfl) fun _ staged => staged
  | cleared orchestrator notify =>
    have cleared : (engine.clearCache orchestrator).Ruled :=
      ruled.modifyOrchestrator orchestrator _ (fun _ => rfl) fun _ staged => staged
    unfold clearCacheFor
    dsimp only
    split
    · exact cleared.of_same rfl (fun _ _ mark => mark) fun _ => rfl
    · exact cleared
  | aside _ _ silent => exact ruled.aside silent

theorem Ruled.play (env : Environment) (ruled : engine.Ruled) (moves : List Move)
    (coherent : engine.Coherent touched none) (wanted : ∀ task, .cancelTask task ∈ moves → touched task) :
    (engine.play env moves).Ruled :=
  coherent.play_invariant env moves wanted (fun _ move coherent ruled => ruled.apply env coherent move)
    ruled

theorem ruled_opening (client : Client) (seats : List (Settings × Cache Float)) :
    (opening client seats).Ruled := by
  have nobody (task : Nat) (run : Run) : (opening client seats).runOf task ≠ some run := nofun
  have seated (id : Nat) (o : Orchestrator)
      (found : (opening client seats).orchestrators[id]? = some o) :
      o.current = none ∧ o.stage = .idle := by
    have found : (seats.map fun seat => Orchestrator.ofCache seat.1 seat.2)[id]? = some o := found
    rw [List.getElem?_map, Option.map_eq_some_iff] at found
    obtain ⟨seat, -, rfl⟩ := found
    exact ⟨rfl, rfl⟩
  refine ⟨⟨fun id request generation tenure => ?_, fun task run works => ?_,
    fun task _ run _ works => absurd works (nobody task run)⟩, fun id o found => ?_⟩
  · obtain ⟨o, found, same⟩ := Option.map_eq_some_iff.mp tenure
    cases (seated id o found).1.symm.trans (congrArg Prod.fst same)
  · exact absurd works (nobody task run)
  · unfold Orchestrator.Staged
    simp only [(seated id o found).1]
    exact Or.inl (seated id o found).2

/-- At every point between two moves of a run. -/
theorem ruled_play (env : Environment) (client : Client) (seats : List (Settings × Cache Float))
    (moves : List Move) : (reached env client seats moves).Ruled :=
  (ruled_opening client seats).play env moves (coherent_opening client seats) fun _ member => member

end Engine

end InlineCompletion
