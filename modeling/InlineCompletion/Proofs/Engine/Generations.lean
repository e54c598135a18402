import InlineCompletion.Proofs.Engine.Governed

/-!
Every completion that begins and every cancellation takes its orchestrator one generation on, and
nothing else does. A request keeps the generation in which it began.
-/

namespace InlineCompletion.Engine

variable {engine old new last : Engine} {env : Environment} {run : Run} {touched : Nat → Prop}
  {task orchestrator : Nat}

/-- The orchestrator for which the next turn begins a completion. -/
def begins? (engine : Engine) : Option Nat :=
  engine.woken?.bind fun task => (engine.loop.activity? task).bind fun activity =>
    if engine.incoming activity = .cancelled then none else activity.phase.starts?

/-- The orchestrator of which a move replaces the request. -/
def supersedes? (engine : Engine) : Move → Option Nat
  | .turn => engine.begins?
  | .cancel orchestrator => some orchestrator
  | _ => none

/-- The completions that a run begins for an orchestrator. -/
def triggers (env : Environment) (orchestrator : Nat) : Engine → List Move → Nat
  | _, [] => 0
  | engine, .turn :: rest =>
    (if engine.begins? = some orchestrator then 1 else 0) +
      triggers env orchestrator (engine.apply env .turn) rest
  | engine, move :: rest => triggers env orchestrator (engine.apply env move) rest

/-- The cancellations of an orchestrator from outside. -/
def cancels (orchestrator : Nat) : List Move → Nat
  | [] => 0
  | .cancel id :: rest => (if id = orchestrator then 1 else 0) + cancels orchestrator rest
  | _ :: rest => cancels orchestrator rest

/-- A later completion or cancellation of its orchestrator has come after the request. -/
def Superseded (engine : Engine) (run : Run) : Prop :=
  ∃ o request, engine.orchestrators[run.orchestrator]? = some o ∧
    engine.requests[run.request]? = some request ∧ request.generation < o.generation

def generationOf (engine : Engine) (orchestrator : Nat) : Option Int :=
  (engine.orchestrators[orchestrator]?).map (·.generation)

/-- One orchestrator goes on to the next generation, if any. -/
structure Advances (turn : Option Nat) (old new : Engine) : Prop where
  generations : ∀ id, new.generationOf id =
    if turn = some id then (old.generationOf id).map (· + 1) else old.generationOf id
  marks : ∀ id cancelled generation, old.markOf id = some (cancelled, generation) →
    ∃ cancelled', new.markOf id = some (cancelled', generation) ∧
      (cancelled = true → cancelled' = true)

theorem generationOf_eq (engine : Engine) (id : Nat) :
    engine.generationOf id = (engine.tenureOf id).map (·.2) := by
  unfold generationOf tenureOf
  rw [Option.map_map]
  rfl

theorem Kept.advances (kept : Kept old new) : Advances none old new where
  generations := fun id => by
    rw [if_neg nofun, generationOf_eq, kept.tenures, ← generationOf_eq]
  marks := fun id cancelled _ mark => ⟨cancelled, (kept.marks id).trans mark, fun gone => gone⟩

theorem Advances.trans {turn : Option Nat} (first : Advances turn old new)
    (second : Advances none new last) : Advances turn old last where
  generations := fun id => (second.generations id).trans
    ((if_neg nofun).trans (first.generations id))
  marks := fun id cancelled generation mark => by
    obtain ⟨cancelled', mark', keeps⟩ := first.marks id cancelled generation mark
    obtain ⟨cancelled'', mark'', keeps'⟩ := second.marks id cancelled' generation mark'
    exact ⟨cancelled'', mark'', fun gone => keeps' (keeps gone)⟩

theorem Advances.from_kept {turn : Option Nat} (kept : Kept old new)
    (second : Advances turn new last) : Advances turn old last where
  generations := fun id => by
    rw [second.generations, generationOf_eq new, kept.tenures, ← generationOf_eq]
  marks := fun id cancelled generation mark =>
    second.marks id cancelled generation ((kept.marks id).trans mark)

theorem advances_endRun (engine : Engine) (run : Run) (outcome : Outcome) :
    Advances none engine (engine.endRun run outcome).1 where
  generations := fun id => by
    rw [if_neg nofun, generationOf_eq, generationOf_eq, tenureOf_endRun]
    split
    · cases engine.tenureOf id <;> rfl
    · rfl
  marks := fun id cancelled generation mark =>
    ⟨cancelled, (markOf_endRun engine run outcome id).trans mark, fun gone => gone⟩

theorem Played.advances {step : Step} (played : Played env run old step) :
    Advances none old step.1 := by
  cases played with
  | waits new target phase deeds => exact (Deeds.kept deeds).advances
  | ends new result deeds => exact (Deeds.kept deeds).advances.trans (advances_endRun ..)

theorem Retires.advances (retires : Retires orchestrator old new) :
    Advances (some orchestrator) old new where
  generations := fun id => by
    rw [generationOf_eq, generationOf_eq, retires.tenureOf]
    split
    · next here =>
      rw [if_pos (congrArg some here.symm), Option.map_map, Option.map_map]
      rfl
    · next other => rw [if_neg fun same => other (Option.some.inj same).symm]
  marks := fun id cancelled generation mark => by
    rw [retires.marks, mark]
    exact ⟨_, rfl, fun gone => by simp [gone]⟩

theorem Succeeds.advances {o : Orchestrator} (succeeds : Succeeds orchestrator o old new) :
    Advances (some orchestrator) old new where
  generations := fun id => by
    unfold generationOf
    rw [succeeds.orchestrators, getElem?_modify]
    split
    · next here =>
      rw [if_pos (congrArg some here.symm), Option.map_map, Option.map_map]
      rfl
    · next other =>
      rw [if_neg fun same => other (Option.some.inj same).symm]
  marks := fun id cancelled generation mark => by
    have inside : id ≠ old.requests.length := by
      intro same
      subst same
      cases mark.symm.trans ((markOf_eq_none_iff old _).mpr (Nat.le_refl _))
    rw [succeeds.marks, if_neg inside, mark]
    exact ⟨_, rfl, fun gone => by simp [gone]⟩

theorem Phase.starts?_of_works {phase : Phase} (works : phase.run? = some run) :
    phase.starts? = none := by
  cases starts : phase.starts? with
  | none => rfl
  | some id => cases works.symm.trans (Phase.run?_of_starts starts)

theorem Resumed.advances {step : Step} {phase : Phase} {outcome : Outcome} {running : Option (Nat × Outcome)}
    (resumed : Resumed env old phase outcome step) (coherent : old.Coherent touched running) :
    Advances (if outcome = .cancelled then none else phase.starts?) old step.1 := by
  cases resumed with
  | plays run works played =>
    rw [Phase.starts?_of_works works, ite_self]
    exact played.advances
  | begins orchestrator o run starts wanted found mine newest succeeds opened =>
    rw [if_neg wanted, starts]
    have live := succeeds.isLive found mine newest
    exact succeeds.advances.trans (opened.played live).advances
  | absent orchestrator starts wanted nowhere same =>
    rw [if_neg wanted, starts, same]
    obtain ⟨-, orchestrators, marks⟩ := beginRequest_of_none coherent nowhere
    refine ⟨fun id => ?_, fun id cancelled generation mark =>
      ⟨cancelled, marks id _ mark, fun gone => gone⟩⟩
    unfold generationOf
    rw [orchestrators]
    split
    · next here => rw [← Option.some.inj here, nowhere]; rfl
    · rfl
  | assists idle unstarted assists =>
    have none : (if outcome = .cancelled then none else phase.starts?) = none := by
      split
      · rfl
      · next wanted => exact Decidable.not_not.mp fun starts => wanted (unstarted starts)
    rw [none]
    exact assists.aside.kept.advances

theorem kept_clearCache (engine : Engine) (id : Nat) : Kept engine (engine.clearCache id) :=
  kept_modifyOrchestrator engine id (fun o => { o with cache := o.cache.clear }) fun _ => rfl

theorem begins?_eq_none (unwoken : ∀ task, engine.woken? ≠ some task) : engine.begins? = none := by
  unfold begins?
  rw [Option.eq_none_iff_forall_ne_some.mpr unwoken]
  rfl

/-- Each move takes its orchestrator one generation on, if it replaces its request. -/
theorem advances_apply (env : Environment) (coherent : engine.Coherent touched none) (move : Move) :
    Advances (engine.supersedes? move) engine (engine.apply env move) := by
  have moved := moved_apply env coherent move
  generalize engine.apply env move = next at *
  cases moved with
  | turned next turned =>
    show Advances engine.begins? engine next
    cases turned with
    | idle rests =>
      rw [begins?_eq_none fun task => ?_]
      · exact Kept.advances ⟨fun _ => rfl, fun _ => rfl⟩
      · unfold woken?
        rcases rests with stopped | empty
        · simp [stopped]
        · simp [empty]
    | released waiter rest going first =>
      rw [begins?_eq_none fun task => by simp [woken?, first]]
      exact Kept.advances ⟨fun _ => rfl, fun _ => rfl⟩
    | woken task rest activity awake going first known same =>
      have begins : engine.begins? =
          if engine.incoming activity = .cancelled then none else activity.phase.starts? := by
        simp [begins?, woken?, going, first, known.1]
      rw [begins]
      subst same
      have awake := coherent.wake first known
      obtain ⟨orchestrators, requests, -⟩ := conclude_frame task
        (({ engine with loop := engine.loop.wakeFirst rest task activity.phase } : Engine).resume env
          activity.phase (engine.incoming activity))
      have concluded : Kept _ _ :=
        ⟨tenureOf_of_orchestrators orchestrators, markOf_of_requests requests⟩
      have resumed := (resumed_resume env coherent first known).advances awake
      have woken : Kept engine
          { engine with loop := engine.loop.wakeFirst rest task activity.phase } :=
        ⟨fun _ => rfl, fun _ => rfl⟩
      exact .from_kept woken (resumed.trans concluded.advances)
  | requested => exact Kept.advances ⟨fun _ => rfl, fun _ => rfl⟩
  | cancelled orchestrator next retires => exact retires.advances
  | selected orchestrator model =>
    have selected : Kept engine (engine.modifyOrchestrator orchestrator fun o =>
        { o with model := Text.trim model }) := kept_modifyOrchestrator _ _ _ fun _ => by rfl
    exact (selected.trans (kept_clearCache _ orchestrator)).advances
  | cleared orchestrator notify =>
    have cleared := kept_clearCache engine orchestrator
    unfold clearCacheFor
    dsimp only
    split
    · exact (cleared.trans (kept_emit ..)).advances
    · exact cleared.advances
  | aside move next silent waits keeps =>
    have none : engine.supersedes? move = none := by
      unfold supersedes?
      split
      · exact absurd rfl waits
      · exact absurd rfl (keeps _)
      · rfl
    rw [none]
    exact silent.kept.advances

/-! A whole run. -/

theorem triggers_cons (env : Environment) (orchestrator : Nat) (engine : Engine) (move : Move)
    (rest : List Move) :
    triggers env orchestrator engine (move :: rest) + cancels orchestrator (move :: rest) =
      (if engine.supersedes? move = some orchestrator then 1 else 0) +
        (triggers env orchestrator (engine.apply env move) rest + cancels orchestrator rest) := by
  cases move with
  | turn => exact Nat.add_assoc ..
  | cancel id =>
    simp only [triggers, cancels, supersedes?, Option.some.injEq]
    omega
  | _ => simp [triggers, cancels, supersedes?]

/-- The generation of an orchestrator counts the completions that it began and its cancellations. -/
theorem generation_play (env : Environment) (coherent : engine.Coherent touched none)
    (moves : List Move) (wanted : ∀ task, .cancelTask task ∈ moves → touched task) (id : Nat) :
    (engine.play env moves).generationOf id = (engine.generationOf id).map fun generation =>
      generation + ((triggers env id engine moves + cancels id moves : Nat) : Int) := by
  induction moves generalizing engine with
  | nil => cases same : engine.generationOf id <;> simp [play, triggers, cancels, same]
  | cons move rest ih =>
    have coherent' := coherent.apply env move fun task same =>
      wanted task (same ▸ List.mem_cons_self ..)
    have later := ih coherent' fun task member => wanted task (List.mem_cons_of_mem _ member)
    refine later.trans ?_
    rw [(advances_apply env coherent move).generations, triggers_cons]
    split
    · rw [Option.map_map]
      refine congrArg (Option.map · _) (funext fun generation => ?_)
      rw [Function.comp_apply]
      omega
    · rw [Nat.zero_add]

end InlineCompletion.Engine

/-!
What an orchestrator is known to do between two turns of the loop, in whatever order its users, the
clock and the client act.
-/

namespace InlineCompletion.Engine

variable {engine : Engine} {run : Run} {task : Nat}

theorem superseded_iff : engine.Superseded run ↔ ∃ current generation cancelled born,
    engine.tenureOf run.orchestrator = some (current, generation) ∧
      engine.markOf run.request = some (cancelled, born) ∧ born < generation := by
  unfold Superseded tenureOf markOf
  constructor
  · intro given
    obtain ⟨o, request, found, known, earlier⟩ := given
    exact ⟨_, _, _, _, by rw [found]; rfl, by rw [known]; rfl, earlier⟩
  · intro given
    obtain ⟨_, _, _, _, tenure, mark, earlier⟩ := given
    obtain ⟨o, found, same⟩ := Option.map_eq_some_iff.mp tenure
    obtain ⟨request, known, same'⟩ := Option.map_eq_some_iff.mp mark
    cases same
    cases same'
    exact ⟨o, request, found, known, earlier⟩

/-- A completion under way that nobody has replaced is the current one. -/
theorem Ruled.current_of_not_superseded (ruled : engine.Ruled) (works : engine.runOf task = some run)
    (first : ¬engine.Superseded run) {o : Orchestrator}
    (found : engine.orchestrators[run.orchestrator]? = some o) : o.current = some run.request := by
  obtain ⟨current, generation, cancelled, born, tenure, mark, stands⟩ :=
    ruled.governed.runs task run works
  rcases stands with rfl | ⟨-, earlier⟩
  · simpa [tenureOf, found, Orchestrator.tenure] using congrArg (Option.map Prod.fst) tenure
  · exact absurd (superseded_iff.mpr ⟨_, _, _, _, tenure, mark, earlier⟩) first

/-- Without a request the orchestrator is idle or done; with one it debounces or generates for a
request of its own generation, which is neither cancelled nor over. The generation counts what was
begun and what was cancelled, and no two requests are under way that nobody has replaced. -/
theorem request_machine (env : Environment) (client : Client)
    (seats : List (Settings × Cache Float)) (moves : List Move) {id : Nat} {o : Orchestrator}
    (found : (reached env client seats moves).orchestrators[id]? = some o) :
    (o.current = none → o.stage = .idle ∨ o.stage = .done) ∧
    (∀ request, o.current = some request →
      (o.stage = .debouncing ∨ o.stage = .generating) ∧
      (∃ r, (reached env client seats moves).requests[request]? = some r ∧ r.cancelled = false ∧
        r.generation = o.generation) ∧
      ∃ task run, (reached env client seats moves).runOf task = some run ∧
        run.orchestrator = id ∧ run.request = request) ∧
    o.generation = (triggers env id (opening client seats) moves + cancels id moves : Nat) ∧
    ∀ task other run run', (reached env client seats moves).runOf task = some run →
      (reached env client seats moves).runOf other = some run' →
      run.orchestrator = id → run'.orchestrator = id →
      ¬(reached env client seats moves).Superseded run →
      ¬(reached env client seats moves).Superseded run' →
      run.request = run'.request ∧ task = other := by
  have ruled := ruled_play env client seats moves
  have staged := ruled.staged id o found
  unfold Orchestrator.Staged at staged
  refine ⟨fun vacant => ?_, fun request current => ⟨?_, ?_, ?_⟩, ?_, ?_⟩
  · simpa only [vacant] using staged
  · simpa only [current] using staged
  · have tenure : (reached env client seats moves).tenureOf id =
        some (some request, o.generation) := by
      simp [tenureOf, found, Orchestrator.tenure, current]
    obtain ⟨r, known, same⟩ :=
      Option.map_eq_some_iff.mp (ruled.governed.current id request o.generation tenure).1
    exact ⟨r, known, congrArg Prod.fst same, congrArg Prod.snd same⟩
  · have tenure : (reached env client seats moves).tenureOf id =
        some (some request, o.generation) := by
      simp [tenureOf, found, Orchestrator.tenure, current]
    exact (ruled.governed.current id request o.generation tenure).2
  · have counted := generation_play env (coherent_opening client seats) moves
      (fun _ member => member) id
    have counts : (reached env client seats moves).generationOf id = some o.generation := by
      simp [generationOf, found]
    rw [counts, eq_comm, Option.map_eq_some_iff] at counted
    obtain ⟨first, opened, same⟩ := counted
    have start : (seats.map fun seat => Orchestrator.ofCache seat.1 seat.2)[id]?.map
        (·.generation) = some first := opened
    rw [List.getElem?_map, Option.map_map, Option.map_eq_some_iff] at start
    obtain ⟨seat, -, zero⟩ := start
    have zero : (0 : Int) = first := zero
    omega
  · intro task other run run' works works' mine mine' first first'
    have current := ruled.current_of_not_superseded works first (mine ▸ found)
    have current' := ruled.current_of_not_superseded works' first' (mine' ▸ found)
    have same : run.request = run'.request := Option.some.inj (current.symm.trans current')
    exact ⟨same, ruled.governed.sole task other run run' works works' same⟩

/-- The machine while the first completion debounces. -/
theorem request_machine_debouncing : ∃ o,
    (solo {} [.request 0 blank ⟨0, 0⟩, .turn]).orchestrators[0]? = some o ∧ o.current = some 0 ∧
      (o.stage = .debouncing ∨ o.stage = .generating) ∧ o.generation = 1 := by
  have found : (solo {} [.request 0 blank ⟨0, 0⟩, .turn]).orchestrators[0]? = some
      { Orchestrator.ofCache {} ⟨1, 0, []⟩ with
        generation := 1
        current := some 0
        stage := .debouncing } := rfl
  obtain ⟨-, busy, counted, -⟩ := request_machine _ _ _ _ found
  exact ⟨_, found, rfl, (busy 0 rfl).1, counted⟩

end InlineCompletion.Engine
