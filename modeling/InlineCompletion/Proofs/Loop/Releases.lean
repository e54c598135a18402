import InlineCompletion.Proofs.Loop.Wakes

/-!
When somebody is released. One that nothing but its timers and the end of one task releases is not
released before the time unless that task is over, and nothing that happens to others in the loop
changes that.
-/

namespace InlineCompletion.Loop

variable {π : Type} {loop old new : Loop π} {waiter guard due : Nat}

/-! Waiting for a time. -/

@[simp] theorem now_watch (id : Nat) (handle : Handle) : (loop.watch id handle).now = loop.now := by
  unfold watch
  split <;> rfl

@[simp] theorem now_settle (id : Nat) (o : Outcome) : (loop.settle id o).now = loop.now := by
  by_cases pending : loop.isPending id = true
  · rw [settle_of_pending loop o pending]
    rfl
  · rw [settle_of_not_pending loop o pending]

theorem Cancelled.now {root : Nat} (step : Cancelled old root new) : new.now = old.now := by
  cases step with
  | nothing => rfl
  | waiter id => exact now_settle id .cancelled
  | task id => rfl

theorem Cancelled.timers {root : Nat} (step : Cancelled old root new) : new.timers = old.timers := by
  cases step with
  | nothing => rfl
  | waiter id => exact timers_settle _ id .cancelled
  | task id => rfl

theorem now_settleAll (waiters : List Nat) (o : Outcome) :
    (waiters.foldl (fun l waiter => l.settle waiter o) loop).now = loop.now := by
  induction waiters generalizing loop with
  | nil => rfl
  | cons id rest ih => exact ih.trans (now_settle id o)

theorem timers_settleAll (waiters : List Nat) (o : Outcome) :
    (waiters.foldl (fun l waiter => l.settle waiter o) loop).timers = loop.timers := by
  induction waiters generalizing loop with
  | nil => rfl
  | cons id rest ih => exact ih.trans (timers_settle loop id o)

/-- The time has come, or the guard is over. -/
def Ripe (loop : Loop π) (guard due : Nat) : Prop :=
  due ≤ loop.now ∨ loop.isDone guard = true

/-- Whoever releases the waiter does so when the guard is over or not before the time. -/
structure Punctual (loop : Loop π) (waiter guard due : Nat) : Prop where
  bare : loop.Bare waiter
  ready : .release waiter ∈ loop.ready → loop.Ripe guard due
  watched : ∀ target, .release waiter ∈ loop.watchers target → target = guard
  timed : ∀ timer ∈ loop.timers, timer.waiter = waiter → due ≤ timer.deadline
  ended : ∀ v, loop.outcome? waiter = some (.value v) → loop.Ripe guard due

namespace Punctual

/-- Nothing ends, and no other handle of the waiter comes up. -/
theorem of_same (punctual : old.Punctual waiter guard due) (bare : new.Bare waiter)
    (now : new.now = old.now) (outcome : ∀ id, new.outcome? id = old.outcome? id)
    (ready : .release waiter ∈ new.ready → .release waiter ∈ old.ready)
    (watched : ∀ target, .release waiter ∈ new.watchers target → .release waiter ∈ old.watchers target)
    (timed : ∀ timer ∈ new.timers, timer ∈ old.timers ∨ timer.waiter ≠ waiter) :
    new.Punctual waiter guard due := by
  have ripe (ripe : old.Ripe guard due) : new.Ripe guard due := by
    unfold Ripe isDone at *
    rwa [now, outcome]
  exact {
    bare
    ready := fun member => ripe (punctual.ready (ready member))
    watched := fun target member => punctual.watched target (watched target member)
    timed := fun timer member mine => (timed timer member).elim
      (fun known => punctual.timed timer known mine) fun other => absurd mine other
    ended := fun v ended => ripe (punctual.ended v ((outcome waiter).symm.trans ended)) }

theorem addFuture (punctual : loop.Punctual waiter guard due) :
    loop.addFuture.2.Punctual waiter guard due :=
  punctual.of_same ((grown_addFuture loop).bare punctual.bare) rfl (outcome?_addFuture loop)
    (fun member => member) (fun target member => watchers_addFuture loop target ▸ member) fun _ => Or.inl

theorem spawn (punctual : loop.Punctual waiter guard due) (phase : π) :
    (loop.spawn phase).2.Punctual waiter guard due := by
  refine punctual.of_same ((bare_spawn phase waiter).mpr punctual.bare) rfl (outcome?_spawn loop phase)
    (fun member => ?_) (fun target member => watchers_spawn loop phase target ▸ member) fun _ => Or.inl
  have member : .release waiter ∈ loop.ready ++ [.wake loop.futures.length] := member
  simpa using member

theorem setTimer (punctual : loop.Punctual waiter guard due) {other : Nat} (apart : other ≠ waiter)
    (delay : Nat) : (loop.setTimer delay other).Punctual waiter guard due := by
  refine punctual.of_same punctual.bare rfl (fun _ => rfl) (fun member => member)
    (fun _ member => member) fun timer member => ?_
  rcases mem_insertTimer.mp member with rfl | known
  · exact Or.inr apart
  · exact Or.inl known

theorem watch (punctual : loop.Punctual waiter guard due) {handle : Handle}
    (apart : handle ≠ .release waiter) (id : Nat) : (loop.watch id handle).Punctual waiter guard due := by
  have bare : (loop.watch id handle).Bare waiter := by simpa [Bare] using punctual.bare
  refine punctual.of_same bare (now_watch id handle) (outcome?_watch loop id · handle) (fun member => ?_)
    (fun target member => ?_) fun timer member => Or.inl (timers_watch loop id handle ▸ member)
  · rw [ready_watch] at member
    split at member
    · simpa [apart.symm] using member
    · exact member
  · rw [watchers_watch] at member
    split at member
    · next here => simpa [here.1, apart.symm] using member
    · exact member

theorem setActivity (punctual : loop.Punctual waiter guard due) {task : Nat} (apart : task ≠ waiter)
    (activity : Activity π) : (loop.setActivity task activity).Punctual waiter guard due := by
  have bare : (loop.setActivity task activity).Bare waiter := by
    unfold Bare
    rw [length_setActivity, activity?_setActivity, if_neg fun same => apart same.1.symm]
    exact punctual.bare
  exact punctual.of_same bare rfl (outcome?_setActivity loop task · activity) (fun member => member)
    (fun target member => watchers_setActivity loop task target activity ▸ member) fun _ => Or.inl

theorem requestCancel (punctual : loop.Punctual waiter guard due) (id : Nat) :
    (loop.requestCancel id).Punctual waiter guard due :=
  punctual.of_same ((bare_requestCancel id waiter).mpr punctual.bare) rfl (outcome?_requestCancel loop id)
    (fun member => member) (fun target member => watchers_requestCancel loop id target ▸ member)
    fun _ => Or.inl

/-- Another future ends, or the waiter does with no value or late enough. -/
theorem settle (punctual : loop.Punctual waiter guard due) {id : Nat} {o : Outcome}
    (late : id = waiter → (∀ v, o ≠ .value v) ∨ loop.Ripe guard due) :
    (loop.settle id o).Punctual waiter guard due := by
  have ripe (ripe : loop.Ripe guard due) : (loop.settle id o).Ripe guard due :=
    ripe.imp (fun passed => (now_settle id o).symm ▸ passed) (isDone_settle_of_isDone id o)
  constructor
  · exact (bare_settle id waiter o).mpr punctual.bare
  · intro member
    rw [ready_settle] at member
    split at member
    · next pending =>
      rcases List.mem_append.mp member with known | woken
      · exact ripe (punctual.ready known)
      · -- What is released is released by the end of the guard.
        refine Or.inr ?_
        rw [isDone_iff, outcome?_settle, if_pos ⟨(punctual.watched id woken).symm, pending⟩]
        nofun
    · exact ripe (punctual.ready member)
  · intro target member
    rw [watchers_settle] at member
    split at member
    · cases member
    · exact punctual.watched target member
  · intro timer member
    exact punctual.timed timer (timers_settle loop id o ▸ member)
  · intro v ended
    rw [outcome?_settle] at ended
    split at ended
    · next here =>
      rcases late here.1.symm with other | late
      · exact absurd (Option.some.inj ended) (other v)
      · exact ripe late
    · exact ripe (punctual.ended v ended)

theorem settleAll (punctual : loop.Punctual waiter guard due) {waiters : List Nat}
    (apart : waiter ∉ waiters) (o : Outcome) :
    (waiters.foldl (fun l id => l.settle id o) loop).Punctual waiter guard due := by
  induction waiters generalizing loop with
  | nil => exact punctual
  | cons id rest ih =>
    refine ih (punctual.settle fun same => ?_) (List.not_mem_of_not_mem_cons apart)
    exact absurd (same ▸ List.mem_cons_self ..) apart

theorem cancelled (punctual : old.Punctual waiter guard due) {root : Nat}
    (step : Cancelled old root new) : new.Punctual waiter guard due := by
  cases step with
  | nothing => exact punctual
  | waiter id => exact punctual.settle fun _ => Or.inl nofun
  | task id => exact punctual.requestCancel id

/-- Whatever the loop has ready, it takes the first. -/
theorem pop (punctual : loop.Punctual waiter guard due) {rest : List Handle}
    (fewer : ∀ handle ∈ rest, handle ∈ loop.ready) :
    ({ loop with ready := rest } : Loop π).Punctual waiter guard due :=
  punctual.of_same punctual.bare rfl (fun _ => rfl) (fewer _) (fun _ member => member) fun _ => Or.inl

theorem fireTimers (punctual : loop.Punctual waiter guard due) :
    loop.fireTimers.Punctual waiter guard due where
  bare := punctual.bare
  ready := by
    intro member
    rcases List.mem_append.mp member with known | fired
    · exact punctual.ready known
    · obtain ⟨timer, early, same⟩ := List.mem_map.mp fired
      have ripe := punctual.timed timer ((List.takeWhile_sublist _).subset early) (Handle.release.inj same)
      have passed : timer.deadline ≤ loop.now :=
        of_decide_eq_true (List.all_eq_true.mp (List.all_takeWhile ..) timer early)
      exact Or.inl (Nat.le_trans ripe passed)
  watched := punctual.watched
  timed := fun timer member => punctual.timed timer ((List.dropWhile_sublist _).subset member)
  ended := punctual.ended

theorem advance (punctual : loop.Punctual waiter guard due) (duration : Nat) :
    (loop.advance duration).Punctual waiter guard due where
  bare := punctual.bare
  ready := fun member => (punctual.ready member).imp_left (Nat.le_trans · (Nat.le_add_right ..))
  watched := punctual.watched
  timed := punctual.timed
  ended := fun v ended => (punctual.ended v ended).imp_left (Nat.le_trans · (Nat.le_add_right ..))

end Punctual

/-- A timer is set, and a task starts whose end comes before it at best. -/
theorem Lone.punctual (lone : loop.Lone) (delay : Nat) (phase : π) :
    let started := (loop.addFuture.2.setTimer delay loop.futures.length).spawn phase
    (started.2.watch started.1 (.release loop.futures.length)).Punctual loop.futures.length started.1
      (loop.now + delay) := by
  intro started
  have guards : started.1 = loop.futures.length + 1 := length_addFuture loop
  have outside {id : Nat} (bare : loop.Bare id) : id ≠ loop.futures.length := Nat.ne_of_lt bare.1
  have unsettled (id : Nat) (new : loop.futures.length ≤ id) : started.2.outcome? id = none :=
    (outcome?_spawn _ phase id).trans ((outcome?_addFuture loop id).trans (outcome?_of_length_le loop new))
  have watchers (target : Nat) : started.2.watchers target = loop.watchers target :=
    (watchers_spawn _ phase target).trans (watchers_addFuture loop target)
  have undone : ¬started.2.isDone started.1 = true := by
    rw [isDone_iff, unsettled _ (by omega)]
    exact fun never => never rfl
  constructor
  · have bare : started.2.Bare loop.futures.length := (bare_spawn phase _).mpr (bare_addFuture loop)
    simpa [Bare] using bare
  · intro member
    rw [ready_watch, if_neg undone] at member
    have member : .release loop.futures.length ∈ loop.ready ++ [.wake started.1] := member
    refine absurd rfl (outside (lone.ready _ ?_))
    simpa using member
  · intro target member
    rw [watchers_watch] at member
    split at member
    · next here => exact here.1
    · exact absurd rfl (outside (lone.watched target _ (watchers target ▸ member)))
  · intro timer member mine
    rw [timers_watch] at member
    rcases mem_insertTimer.mp member with rfl | known
    · exact Nat.le_refl _
    · exact absurd mine (outside (lone.timed timer known))
  · intro v ended
    rw [outcome?_watch, unsettled _ (Nat.le_refl _)] at ended
    cases ended

end InlineCompletion.Loop
