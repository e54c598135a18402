import Mathlib.Data.List.Induction
import InlineCompletion.Proofs.Engine.Sparing

/-!
Orchestrators that share a client do not disturb each other. What is done by one of them, or for it,
leaves the others as they are and stops only what was started for it; and what is stopped of a
completion is stopped by its own orchestrator, by its caller, or with everything else.
-/

namespace InlineCompletion

/-- The orchestrator for which the task was made. -/
def Phase.orchestrator? (phase : Phase) : Option Nat :=
  match phase.run? with
  | some run => some run.orchestrator
  | none => phase.starts?

namespace Engine

variable {engine old new last : Engine} {env : Environment} {hit : Belonging → Prop} {run : Run}
  {touched : Nat → Prop} {task second : Nat} {work : Belonging} {move : Move}

/-- The orchestrator whose move it is, if it is one's. -/
def actor? (engine : Engine) : Move → Option Nat
  | .turn => engine.woken?.bind fun task => (engine.phaseOf task).bind (·.orchestrator?)
  | .request orchestrator _ _ | .cancel orchestrator => some orchestrator
  | .selectModel orchestrator _ | .clearCache orchestrator _ => some orchestrator
  | .cancelTask task => (engine.phaseOf task).bind (·.orchestrator?)
  | _ => none

theorem orchestrator?_of_run {phase : Phase} (works : phase.run? = some run) :
    phase.orchestrator? = some run.orchestrator := by
  unfold Phase.orchestrator?
  rw [works]

theorem orchestrator?_of_starts {phase : Phase} {orchestrator : Nat}
    (starts : phase.starts? = some orchestrator) : phase.orchestrator? = some orchestrator := by
  unfold Phase.orchestrator?
  rw [Phase.run?_of_starts starts]
  exact starts

/-- Whoever replaces a request does so for itself. -/
theorem actor?_of_supersedes (coherent : engine.Coherent touched none) {orchestrator : Nat}
    (replaced : engine.supersedes? move = some orchestrator) : engine.actor? move = some orchestrator := by
  cases move with
  | turn =>
    obtain ⟨task, woken, begins⟩ := Option.bind_eq_some_iff.mp replaced
    obtain ⟨activity, known, begins⟩ := Option.bind_eq_some_iff.mp begins
    split at begins
    · cases begins
    · obtain ⟨-, rest, first⟩ := woken?_eq_some_iff.mp woken
      obtain ⟨found, going, -⟩ := Loop.Sound.wake coherent.sound first
      cases known.symm.trans going.1
      have there : engine.phaseOf task = some activity.phase :=
        phaseOf_eq_some_iff.mpr ⟨activity, going, rfl⟩
      unfold actor?
      simp only [woken, Option.bind_some, there]
      exact orchestrator?_of_starts begins
  | cancel other => exact replaced
  | _ => cases replaced

/-! Other orchestrators. -/

theorem orchestrators_modify (f : Orchestrator → Orchestrator) {id : Nat} (other : second ≠ id) :
    (engine.orchestrators.modify id f)[second]? = engine.orchestrators[second]? := by
  rw [getElem?_modify, if_neg other]

theorem Deed.others (deed : Deed env run old new) (other : second ≠ run.orchestrator) :
    new.orchestrators[second]? = old.orchestrators[second]? := by
  cases deed with
  | aside silent => rw [silent.orchestrators]
  | enters => exact orchestrators_modify _ other
  | notifies | asks => rfl
  | consults =>
    unfold lookUp
    split
    · rfl
    · exact orchestrators_modify _ other
  | stores =>
    unfold store
    split
    · rfl
    · exact orchestrators_modify _ other

theorem Deeds.others (deeds : Deeds env run old new) (other : second ≠ run.orchestrator) :
    new.orchestrators[second]? = old.orchestrators[second]? := by
  induction deeds with
  | refl => rfl
  | tail deeds deed ih => exact (deed.others other).trans ih

theorem Played.others {step : Step} (played : Played env run old step)
    (other : second ≠ run.orchestrator) : step.1.orchestrators[second]? = old.orchestrators[second]? := by
  cases played with
  | waits new target phase deeds => exact Deeds.others deeds other
  | ends new result deeds =>
    refine Eq.trans ?_ (Deeds.others deeds other)
    unfold endRun
    split
    · exact orchestrators_modify _ other
    · rfl

theorem Resumed.others {step : Step} {phase : Phase} {outcome : Outcome}
    {running : Option (Nat × Outcome)} (resumed : Resumed env old phase outcome step)
    (coherent : old.Coherent touched running) (other : phase.orchestrator? ≠ some second) :
    step.1.orchestrators[second]? = old.orchestrators[second]? := by
  cases resumed with
  | plays run works played =>
    rw [orchestrator?_of_run works] at other
    exact played.others fun same => other (congrArg some same.symm)
  | begins orchestrator o run starts wanted found mine newest succeeds opened =>
    rw [orchestrator?_of_starts starts] at other
    have other : second ≠ orchestrator := fun same => other (congrArg some same.symm)
    have played := opened.played (succeeds.isLive found mine newest)
    refine (played.others (mine ▸ other)).trans ?_
    rw [succeeds.orchestrators]
    exact orchestrators_modify _ other
  | absent orchestrator starts wanted nowhere same =>
    rw [same, (beginRequest_of_none coherent nowhere).2.1]
  | assists idle unstarted assists => rw [assists.aside.orchestrators]

/-- A move leaves the orchestrators alone whose move it is not. -/
theorem others_apply (env : Environment) (coherent : engine.Coherent touched none) (move : Move)
    (other : engine.actor? move ≠ some second) :
    (engine.apply env move).orchestrators[second]? = engine.orchestrators[second]? := by
  have moved := moved_apply env coherent move
  generalize engine.apply env move = next at *
  have apart {orchestrator : Nat} (mine : engine.actor? move = some orchestrator) : second ≠ orchestrator := by
    intro same
    exact other (mine.trans (congrArg some same.symm))
  cases moved with
  | turned next turned =>
    cases turned with
    | idle | released => rfl
    | woken task rest activity awake going first known same =>
      subst same
      have resumed := resumed_resume env coherent first known
      obtain ⟨orchestrators, -⟩ := conclude_frame task
        (({ engine with loop := engine.loop.wakeFirst rest task activity.phase } : Engine).resume env
          activity.phase (engine.incoming activity))
      rw [orchestrators]
      refine resumed.others (coherent.wake first known) fun same => other ?_
      have there := phaseOf_eq_some_iff.mpr ⟨activity, known, rfl⟩
      simp [actor?, woken?, going, first, there, same]
  | requested => rfl
  | cancelled orchestrator next retires =>
    rw [retires.orchestrators]
    exact orchestrators_modify _ (apart rfl)
  | selected orchestrator model =>
    exact (orchestrators_modify _ (apart rfl)).trans (orchestrators_modify _ (apart rfl))
  | cleared orchestrator notify =>
    unfold clearCacheFor
    dsimp only
    split <;> exact orchestrators_modify _ (apart rfl)
  | aside move next silent => rw [silent.orchestrators]

/-- Who stops the work of a completion: everybody's end, its caller, or its own orchestrator. -/
def Culprit (engine : Engine) (move : Move) (task : Nat) (run : Run) : Prop :=
  move = .abort ∨ move = .cancelTask task ∨ engine.supersedes? move = some run.orchestrator

theorem culprit_of_condemned (coherent : engine.Coherent touched none) (ruled : engine.Ruled)
    (works : engine.Works task run work) (condemned : engine.Condemned move work) :
    engine.Culprit move task run := by
  rcases condemned with aborts | ⟨orchestrator, replaced, holds⟩
  · exact Or.inl aborts
  · obtain ⟨activity, known, runs, duty⟩ := works_iff.mp works
    obtain ⟨holder, found, other, unfinished, runs', rfl, mine⟩ := holder_of_workOf coherent ruled holds
    cases coherent.apart task holder activity found work known unfinished (mem_belongings_of_duty runs duty)
      mine
    cases known.unique unfinished
    cases runs.symm.trans runs'
    exact Or.inr (Or.inr replaced)

/-- Work that a move stops was not stopped before, or it was nobody else's move. -/
theorem culprit_of_stopped (env : Environment) (coherent : engine.Coherent touched none)
    (ruled : engine.Ruled) (released : engine.Released) (manned : engine.Manned)
    (works : engine.Works task run work) (works' : (engine.apply env move).Works task run work)
    (free : ¬engine.Stopped task work) (stopped : (engine.apply env move).Stopped task work) :
    engine.Culprit move task run := by
  have marked (marked : (engine.apply env move).Marked work) : engine.Culprit move task run :=
    (sparing_apply env coherent move work marked).elim (fun before => absurd (Or.inl before) free)
      (culprit_of_condemned coherent ruled works)
  obtain ⟨activity', known', runs', duty'⟩ := works_iff.mp works'
  rcases stopped with marks | ⟨found, target, unfinished, waits, struck⟩
  · exact marked marks
  cases known'.unique unfinished
  by_cases caller : move = .cancelTask task
  · exact Or.inr (Or.inl caller)
  by_cases woken : move = .turn ∧ engine.woken? = some task
  · obtain ⟨rfl, woken⟩ := woken
    exact absurd struck (begun_of_woken env coherent released manned woken works' known' waits).1
  obtain ⟨activity, known, runs, duty⟩ := works_iff.mp works
  have moved := moved_apply env coherent move
  obtain ⟨after, known'', -, waiting⟩ := moved.unfinished coherent known fun turns wakes => woken ⟨turns, wakes⟩
  cases known'.unique known''
  have waits : activity.waitingFor = some target := waiting.symm.trans waits
  have free : ¬engine.loop.Struck none target := fun struck =>
    free (Or.inr ⟨activity, target, known, waits, struck⟩)
  by_cases pending : engine.loop.isPending target = true
  · have spared : (engine.apply env move).Coherent (· ≠ task) none :=
      (coherent.spare known duty waits pending free).apply env move fun other same here =>
        caller (here ▸ same)
    exact marked (spared.marked known' duty' (waiting ▸ waits) struck)
  · -- What is over stays as it is.
    have inside := coherent.sound.target_lt known waits
    obtain ⟨outcome, settled⟩ : ∃ outcome, engine.loop.outcome? target = some outcome :=
      Option.ne_none_iff_exists'.mp fun unsettled =>
        pending ((Loop.isPending_iff _ target).mpr ⟨inside, unsettled⟩)
    have settled' := moved.ended coherent settled
    rcases struck with runs | cancelled | ⟨_, going, -⟩
    · cases runs
    · cases settled'.symm.trans cancelled
      exact absurd (Or.inr (Or.inl settled)) free
    · cases going.2.symm.trans settled'

theorem works_before (env : Environment) (coherent : engine.Coherent touched none)
    (works : (engine.apply env move).Works task run work)
    (unwoken : move = .turn → engine.woken? ≠ some task) : engine.Works task run work := by
  obtain ⟨activity, known, runs, duty⟩ := works_iff.mp works
  rcases (moved_apply env coherent move).before coherent known unwoken with
    ⟨found, known', same, -⟩ | ⟨-, job, start⟩
  · exact works_iff.mpr ⟨found, known', same ▸ runs, same ▸ duty⟩
  · rw [start] at runs
    cases runs

/-- Work is not stopped when it is new. -/
theorem free_of_begun (env : Environment) (coherent : engine.Coherent touched none) (ruled : engine.Ruled)
    (accounts : engine.Accounts engine.dutyOf) (manned : engine.Manned)
    (works : (engine.apply env move).Works task run work) (idle : ¬engine.Works task run work) :
    ¬(engine.apply env move).Stopped task work := by
  by_cases woken : move = .turn ∧ engine.woken? = some task
  case neg => exact absurd (works_before env coherent works fun turns wakes => woken ⟨turns, wakes⟩) idle
  obtain ⟨rfl, woken⟩ := woken
  have coherent' : (engine.apply env .turn).Coherent touched none := coherent.apply env .turn nofun
  obtain ⟨activity, known, runs, duty⟩ := works_iff.mp works
  obtain ⟨errand, target, waits, -⟩ := (coherent'.fits task activity known nofun).does_duty duty
  obtain ⟨calm, unknown⟩ := begun_of_woken env coherent accounts.released manned woken works known waits
  have unknown := unknown.resolve_right idle
  intro stopped
  rcases stopped with marked | ⟨found, target', known', waits', struck⟩
  · rcases sparing_apply env coherent .turn work marked with
      before | aborts | ⟨orchestrator, -, holds⟩
    · cases work with
      | call call => exact absurd (accounts.inside call (accounts.aborted call before)) (Nat.not_lt_of_le unknown)
      | stream id =>
        obtain ⟨stream, there, -⟩ := before
        exact absurd (List.getElem?_eq_some_iff.mp there).1 (Nat.not_lt_of_le unknown)
      | request | watch => exact before
    · cases aborts
    · obtain ⟨holder, other, run', there, -, -, mine⟩ := holder_of_workOf coherent ruled holds
      have inside := belongs_lt coherent there nofun mine
      cases work with
      | call call => exact absurd inside (Nat.not_lt_of_le unknown)
      | stream id => exact absurd inside (Nat.not_lt_of_le unknown)
      | request | watch => exact unknown
  · cases known.unique known'
    cases waits.symm.trans waits'
    exact calm struck

/-! Every run. -/

/-- Whatever is stopped has once been stopped by its own orchestrator, by its caller or with everything
else. -/
theorem culprit_play (env : Environment) (client : Client) (seats : List (Settings × Cache Float))
    (moves : List Move) (works : (reached env client seats moves).Works task run work)
    (stopped : (reached env client seats moves).Stopped task work) :
    ∃ past move next, moves = past ++ move :: next ∧
      (reached env client seats past).Works task run work ∧
      ¬(reached env client seats past).Stopped task work ∧
      (reached env client seats past).Culprit move task run := by
  induction moves using List.reverseRecOn with
  | nil =>
    obtain ⟨activity, known, -⟩ := works_iff.mp works
    cases known.1
  | append_singleton moves move ih =>
    have after : reached env client seats (moves ++ [move]) = (reached env client seats moves).apply env move :=
      play_append ..
    rw [after] at works stopped
    have coherent := coherent_play env client seats moves
    have ruled := ruled_play env client seats moves
    have accounts := accounts_play env client seats moves
    have manned := manned_play env client seats moves
    by_cases before : (reached env client seats moves).Works task run work
    · by_cases free : (reached env client seats moves).Stopped task work
      · obtain ⟨past, other, next, rfl, rest⟩ := ih before free
        exact ⟨past, other, next ++ [move], by simp, rest⟩
      · exact ⟨moves, move, [], rfl, before, free,
          culprit_of_stopped env coherent ruled accounts.released manned before works free stopped⟩
    · exact absurd stopped (free_of_begun env coherent ruled accounts manned works before)

/-- A move leaves every orchestrator as it is whose move it is not, and unless it stops everything, a
completion of that one goes on with its work, which is not stopped if it was not stopped before. What is
stopped of a completion has once been stopped by a trigger or cancellation of its own orchestrator, by its
caller, or with everything else, and at that time it was under way. -/
theorem orchestrators_isolated (env : Environment) (client : Client) (seats : List (Settings × Cache Float))
    (moves : List Move) :
    let engine := reached env client seats moves
    (∀ move second, engine.actor? move ≠ some second →
      (engine.apply env move).orchestrators[second]? = engine.orchestrators[second]?) ∧
    (∀ move task run work, engine.actor? move ≠ some run.orchestrator → move ≠ .abort →
      engine.Works task run work → (engine.apply env move).Works task run work ∧
        (¬engine.Stopped task work → ¬(engine.apply env move).Stopped task work)) ∧
    ∀ task run work, engine.Works task run work → engine.Stopped task work →
      ∃ past move next, moves = past ++ move :: next ∧
        (reached env client seats past).Works task run work ∧
        ¬(reached env client seats past).Stopped task work ∧
        (reached env client seats past).Culprit move task run := by
  intro engine
  have coherent := coherent_play env client seats moves
  have ruled := ruled_play env client seats moves
  have accounts := accounts_play env client seats moves
  have manned := manned_play env client seats moves
  refine ⟨fun move second other => others_apply env coherent move other,
    fun move task run work other spares works => ?_, fun task run work => culprit_play env client seats moves⟩
  obtain ⟨activity, known, runs, duty⟩ := works_iff.mp works
  have mine : (engine.phaseOf task).bind (·.orchestrator?) = some run.orchestrator := by
    have there := phaseOf_eq_some_iff.mpr ⟨activity, known, rfl⟩
    rw [there]
    exact orchestrator?_of_run runs
  have unwoken (turns : move = .turn) : engine.woken? ≠ some task := by
    subst turns
    intro woken
    exact other (Option.bind_eq_some_iff.mpr ⟨task, woken, mine⟩)
  obtain ⟨found, known', same, -⟩ := (moved_apply env coherent move).unfinished coherent known unwoken
  have works' : (engine.apply env move).Works task run work :=
    works_iff.mpr ⟨found, known', same.symm ▸ runs, same.symm ▸ duty⟩
  refine ⟨works', fun free stopped => ?_⟩
  rcases culprit_of_stopped env coherent ruled accounts.released manned works works' free stopped with
    aborts | caller | replaced
  · exact spares aborts
  · exact other (caller ▸ mine)
  · exact other (actor?_of_supersedes coherent replaced)

/-- Two completions that wait for their calls, each for another orchestrator. -/
def paired : List Move :=
  [.closeGate, .request 0 blank ⟨0, 0⟩, .request 1 blank ⟨0, 0⟩, .turn, .turn, .turn, .turn]

/-- When the first is cancelled, its call is stopped and that of the second is not. -/
theorem orchestrators_isolated_paired :
    let engine := reached ⟨fun _ => [], fun _ => 0⟩ { replies := [] } [(whole, ⟨1, 0, []⟩), (whole, ⟨1, 0, []⟩)]
    (engine paired).client.activeCalls = [2, 3] ∧
      (engine (paired ++ [.cancel 0])).Stopped 0 (.call 2) ∧
      ¬(engine (paired ++ [.cancel 0])).Stopped 1 (.call 3) ∧
      (engine (paired ++ [.cancel 0])).orchestrators[1]? = (engine paired).orchestrators[1]? := by
  intro engine
  have works : (engine paired).Works 1 { firstRun with orchestrator := 1, request := 1 } (.call 3) :=
    ⟨rfl, rfl⟩
  have free : ¬(engine paired).Stopped 1 (.call 3) := by
    intro stopped
    rcases stopped with marked | ⟨activity, target, known, waits, struck⟩
    · cases marked
    · have there : (engine paired).loop.activity? 1 =
          some { phase := .calling 3 (some { firstRun with orchestrator := 1, request := 1 }), waitingFor := some 3 } := rfl
      cases there.symm.trans known.1
      cases waits
      rcases struck with runs | ended | ⟨found, going, roused⟩
      · cases runs
      · cases ended
      · have there : (engine paired).loop.activity? 3 =
            some { phase := .answering ⟨[], none⟩, waitingFor := some 5 } := rfl
        cases there.symm.trans going.1
        rcases roused with asked | ⟨target, waits, ended⟩
        · cases asked
        · cases waits
          cases ended
  obtain ⟨others, spared, -⟩ := orchestrators_isolated ⟨fun _ => [], fun _ => 0⟩ { replies := [] }
    [(whole, ⟨1, 0, []⟩), (whole, ⟨1, 0, []⟩)] paired
  have other : (engine paired).actor? (.cancel 0) ≠ some 1 := nofun
  refine ⟨rfl, Or.inl ?_, (spared (.cancel 0) 1 _ _ other nofun works).2 free, others (.cancel 0) 1 other⟩
  exact List.mem_singleton_self _

end Engine

end InlineCompletion
