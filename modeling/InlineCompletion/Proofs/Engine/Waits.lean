import InlineCompletion.Proofs.Engine.Balance
import InlineCompletion.Proofs.Engine.Propagation

/-!
Whoever waits for a time goes on waiting, whatever the others do, until the time has come or the guard
is over. The clock goes on only when time passes, never while a task runs.
-/

namespace InlineCompletion.Engine

variable {engine old new : Engine} {env : Environment} {hit : Belonging → Prop} {reads : Option Nat}
  {touched : Nat → Prop} {task waiter guard due : Nat}

theorem Coherent.released {running : Option (Nat × Outcome)} (coherent : engine.Coherent touched running) :
    engine.Released where
  lone := ⟨coherent.sound.readyReleases, coherent.sound.watchedReleases, coherent.sound.timed⟩
  gate := coherent.gate
  requests := fun id request known => (coherent.requests id request known).waiters

/-! One turn. -/

theorem Accounted.timely {step : Step} (accounted : Accounted hit reads old step) : Timely old step.1 := by
  cases accounted with
  | minds minded => exact minded.tallied.timely
  | opens middle request call first second =>
    have opened : Timely middle (middle.openStream call).2 := .of_same rfl rfl rfl
    have granted : Timely (middle.openStream call).2 (middle.granted request call) :=
      timely_modifyRequest _ request fun _ _ member => member
    exact ((first.timely.trans opened).trans granted).trans second.tallied.timely
  | calls middle call owner first second =>
    have spawned : Timely middle (middle.spawn (.answer call)).2 := timely_spawn middle (.answer call)
    have begun : Timely (middle.spawn (.answer call)).2 (middle.beginCall call).2 := .of_same rfl rfl rfl
    exact ((first.timely.trans spawned).trans begun).trans second.timely

theorem timely_resume (env : Environment) (engine : Engine) (phase : Phase) (outcome : Outcome) :
    Timely engine (engine.resume env phase outcome).1 := by
  have dropped : Timely engine (engine.dropped phase) := by
    unfold dropped
    split
    · exact .of_same rfl rfl rfl
    · exact .refl engine
  exact dropped.trans (accounted_resume env engine phase outcome).timely

/-- A task is no bare future. -/
theorem Punctual.ne_task (punctual : engine.Punctual waiter guard due) {activity : Activity Phase}
    (known : engine.loop.Unfinished task activity) : task ≠ waiter := by
  rintro rfl
  cases punctual.loop.bare.2.symm.trans known.1

theorem timely_wake {rest : List Handle} (fewer : ∀ handle ∈ rest, handle ∈ engine.loop.ready)
    {activity : Activity Phase} (known : engine.loop.Unfinished task activity) :
    Timely engine { engine with loop := engine.loop.wakeFirst rest task activity.phase } :=
  .withLoop engine (f := (·.wakeFirst rest task activity.phase)) rfl (fun _ member => member)
    fun punctual => (punctual.loop.pop fewer).setActivity (punctual.ne_task known) _

theorem timely_conclude {step : Step} {activity : Activity Phase}
    (known : step.1.loop.Unfinished task activity) : Timely step.1 (conclude task step) := by
  obtain ⟨-, client⟩ := conclude_client task step
  obtain ⟨-, requests, -⟩ := conclude_frame task step
  have loop : (conclude task step).loop.now = step.1.loop.now ∧
      (conclude task step).loop.timers = step.1.loop.timers ∧ ∀ waiter guard due,
        step.1.Punctual waiter guard due → (conclude task step).loop.Punctual waiter guard due := by
    obtain ⟨engine, verdict⟩ := step
    cases verdict with
    | wait target phase =>
      refine ⟨Loop.now_watch .., Loop.timers_watch .., fun waiter _ _ punctual => ?_⟩
      have wakes : Handle.wake task ≠ .release waiter := nofun
      exact (punctual.loop.setActivity (punctual.ne_task known) _).watch wakes target
    | done result =>
      rw [loop_conclude_done]
      refine ⟨Loop.now_settle .., Loop.timers_settle .., fun _ _ _ punctual =>
        punctual.loop.settle fun same => ?_⟩
      exact absurd same (punctual.ne_task known)
  refine ⟨loop.1, fun _ member => loop.2.1 ▸ member,
    fun punctual => ⟨loop.2.2 _ _ _ punctual, client ▸ punctual.gate, ?_⟩⟩
  rw [requests]
  exact punctual.requests

theorem timely_turn (env : Environment) (coherent : engine.Coherent touched none) :
    Timely engine (engine.apply env .turn) := by
  have turned : Turned env engine (engine.apply env .turn) := turned_turn env coherent
  generalize engine.apply env .turn = next at turned
  cases turned with
  | idle => exact .refl engine
  | released other rest going first =>
    -- The handle that is taken was ready, and so it comes late enough.
    have fewer (handle : Handle) (member : handle ∈ rest) : handle ∈ engine.loop.ready :=
      first ▸ List.mem_cons_of_mem _ member
    refine ⟨Loop.now_settle .., fun _ member => (Loop.timers_settle ..).symm ▸ member,
      fun punctual => ⟨?_, punctual.gate, punctual.requests⟩⟩
    refine (punctual.loop.pop fewer).settle fun same => Or.inr (punctual.loop.ready ?_)
    rw [first, same]
    exact List.mem_cons_self ..
  | woken task rest activity awake going first known same =>
    subst same
    obtain ⟨runner, runs⟩ := runner_of_woken env coherent first known
    have woken := timely_wake (fun handle member => first ▸ List.mem_cons_of_mem _ member) known
    exact (woken.trans (timely_resume env _ activity.phase _)).trans (timely_conclude runs)

/-! One move. -/

theorem timely_apply (env : Environment) (coherent : engine.Coherent touched none) (move : Move)
    (timeless : move.timeless = true) : Timely engine (engine.apply env move) := by
  by_cases turns : move = .turn
  · subst turns
    exact timely_turn env coherent
  by_cases asks : ∃ orchestrator document position, move = .request orchestrator document position
  · obtain ⟨orchestrator, document, position, rfl⟩ := asks
    exact timely_spawn engine (.complete orchestrator document position)
  exact (tallied_apply env engine move turns timeless
    fun orchestrator document position same => asks ⟨orchestrator, document, position, same⟩).timely

theorem now_apply (env : Environment) (coherent : engine.Coherent touched none) (move : Move) :
    engine.loop.now ≤ (engine.apply env move).loop.now := by
  cases timeless : move.timeless with
  | true => exact Nat.le_of_eq (timely_apply env coherent move timeless).now.symm
  | false =>
    cases move with
    | pass nanoseconds => exact Nat.le_add_right ..
    | fireTimers => exact Nat.le_refl _
    | _ => cases timeless

theorem Punctual.apply (punctual : engine.Punctual waiter guard due) (env : Environment)
    (coherent : engine.Coherent touched none) (move : Move) :
    (engine.apply env move).Punctual waiter guard due := by
  cases timeless : move.timeless with
  | true => exact (timely_apply env coherent move timeless).punctual punctual
  | false =>
    cases move with
    | pass nanoseconds => exact ⟨punctual.loop.advance nanoseconds, punctual.gate, punctual.requests⟩
    | fireTimers => exact ⟨punctual.loop.fireTimers, punctual.gate, punctual.requests⟩
    | _ => cases timeless

theorem now_play (env : Environment) (coherent : engine.Coherent touched none) (moves : List Move)
    (wanted : ∀ task, .cancelTask task ∈ moves → touched task) :
    engine.loop.now ≤ (engine.play env moves).loop.now :=
  coherent.play_invariant env moves wanted
    (fun _ move coherent earlier => Nat.le_trans earlier (now_apply env coherent move)) (Nat.le_refl _)

end InlineCompletion.Engine
