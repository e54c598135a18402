import InlineCompletion.Proofs.Loop.Lookup

/-!
Tasks that have not ended and bare futures, and what each operation on a loop does to them. Whoever is
to be released is a bare future, whatever is done.
-/

namespace InlineCompletion.Loop

variable {π : Type} {loop old new : Loop π}

/-- A task that has not ended, with what it does. -/
def Unfinished (loop : Loop π) (task : Nat) (activity : Activity π) : Prop :=
  loop.activity? task = some activity ∧ loop.outcome? task = none

theorem Unfinished.unique {task : Nat} {activity other : Activity π}
    (first : loop.Unfinished task activity) (second : loop.Unfinished task other) :
    activity = other := by
  have same := first.1.symm.trans second.1
  exact Option.some.inj same

theorem Unfinished.lt {task : Nat} {activity : Activity π}
    (unfinished : loop.Unfinished task activity) : task < loop.futures.length :=
  lt_of_activity? loop unfinished.1

theorem isPending_of_bare {waiter : Nat} (bare : loop.Bare waiter)
    (unsettled : loop.outcome? waiter = none) : loop.isPending waiter = true :=
  (isPending_iff loop waiter).mpr ⟨bare.1, unsettled⟩

theorem isDone_of_not_pending {target : Nat} (inside : target < loop.futures.length)
    (idle : loop.isPending target ≠ true) : loop.isDone target = true := by
  rw [isDone_iff]
  intro unsettled
  exact idle ((isPending_iff loop target).mpr ⟨inside, unsettled⟩)

theorem not_done_of_pending {target : Nat} (pending : loop.isPending target = true) :
    ¬loop.isDone target = true := by
  rw [isDone_iff]
  exact fun ended => ended ((isPending_iff loop target).mp pending).2

theorem isPending_congr {id : Nat} (length : new.futures.length = old.futures.length)
    (outcome : new.outcome? id = old.outcome? id) : new.isPending id = old.isPending id := by
  rw [Bool.eq_iff_iff, isPending_iff, isPending_iff, length, outcome]

theorem Unfinished.pending {task : Nat} {activity : Activity π}
    (unfinished : loop.Unfinished task activity) : loop.isPending task = true :=
  (isPending_iff loop task).mpr ⟨unfinished.lt, unfinished.2⟩

theorem Unfinished.ne_of_bare {task waiter : Nat} {activity : Activity π}
    (unfinished : loop.Unfinished task activity) (bare : loop.Bare waiter) : task ≠ waiter := by
  intro same
  subst same
  cases bare.2.symm.trans unfinished.1

/-! A future ends. -/

theorem isDone_settle_of_isDone {target : Nat} (id : Nat) (o : Outcome)
    (ended : loop.isDone target = true) : (loop.settle id o).isDone target = true := by
  rw [isDone_iff] at ended ⊢
  rw [outcome?_settle]
  split
  · simp
  · exact ended

theorem unfinished_settle {id : Nat} (pending : loop.isPending id = true) (o : Outcome) (task : Nat)
    (activity : Activity π) :
    (loop.settle id o).Unfinished task activity ↔ task ≠ id ∧ loop.Unfinished task activity := by
  unfold Unfinished
  rw [activity?_settle, outcome?_settle]
  by_cases same : task = id
  · subst same
    simp [pending]
  · simp [same]

theorem unfinished_settle_of_bare {id : Nat} (bare : loop.Bare id) (o : Outcome) (task : Nat)
    (activity : Activity π) :
    (loop.settle id o).Unfinished task activity ↔ loop.Unfinished task activity := by
  unfold Unfinished
  rw [activity?_settle, outcome?_settle]
  by_cases same : task = id
  · subst same
    simp [bare.2]
  · simp [same]

theorem bare_settle (id waiter : Nat) (o : Outcome) :
    (loop.settle id o).Bare waiter ↔ loop.Bare waiter := by
  simp [Bare]

theorem unfinished_finish {task : Nat} {activity : Activity π} (known : loop.Unfinished task activity)
    (o : Outcome) (other : Nat) (found : Activity π) :
    (loop.settle task o).Unfinished other found ↔ other ≠ task ∧ loop.Unfinished other found :=
  unfinished_settle known.pending o other found

/-! Nothing but releases of bare futures is added. -/

/-- The loop has grown by bare futures and by releases. -/
structure Grown (old new : Loop π) : Prop where
  length : old.futures.length ≤ new.futures.length
  outcome : ∀ id, new.outcome? id = old.outcome? id
  activity : ∀ id, new.activity? id = old.activity? id
  ready : ∃ more, new.ready = old.ready ++ more ∧
    ∀ handle ∈ more, ∃ waiter, handle = .release waiter ∧ new.Bare waiter
  watchers : ∀ id, ∃ more, new.watchers id = old.watchers id ++ more ∧
    (old.isDone id = true → more = []) ∧
    ∀ handle ∈ more, ∃ waiter, handle = .release waiter ∧ new.Bare waiter
  timed : ∀ timer ∈ new.timers, timer ∈ old.timers ∨ new.Bare timer.waiter

namespace Grown

theorem unfinished (grown : Grown old new) (task : Nat) (activity : Activity π) :
    new.Unfinished task activity ↔ old.Unfinished task activity := by
  unfold Unfinished
  rw [grown.activity, grown.outcome]

theorem isDone (grown : Grown old new) (id : Nat) : new.isDone id = old.isDone id := by
  unfold Loop.isDone
  rw [grown.outcome]

theorem isPending (grown : Grown old new) {id : Nat} (pending : old.isPending id = true) :
    new.isPending id = true := by
  rw [isPending_iff] at pending ⊢
  exact ⟨Nat.lt_of_lt_of_le pending.1 grown.length, (grown.outcome id).trans pending.2⟩

theorem bare (grown : Grown old new) {id : Nat} (known : old.Bare id) : new.Bare id :=
  ⟨Nat.lt_of_lt_of_le known.1 grown.length, (grown.activity id).trans known.2⟩

theorem trans {last : Loop π} (first : Grown old new) (second : Grown new last) : Grown old last where
  length := Nat.le_trans first.length second.length
  outcome := fun id => (second.outcome id).trans (first.outcome id)
  activity := fun id => (second.activity id).trans (first.activity id)
  ready := by
    obtain ⟨more, ready, releases⟩ := first.ready
    obtain ⟨more', ready', releases'⟩ := second.ready
    refine ⟨more ++ more', by rw [ready', ready, List.append_assoc], fun handle member => ?_⟩
    rcases List.mem_append.mp member with early | late
    · obtain ⟨waiter, same, known⟩ := releases handle early
      exact ⟨waiter, same, second.bare known⟩
    · exact releases' handle late
  watchers := by
    intro id
    obtain ⟨more, watchers, nothing, releases⟩ := first.watchers id
    obtain ⟨more', watchers', nothing', releases'⟩ := second.watchers id
    refine ⟨more ++ more', by rw [watchers', watchers, List.append_assoc], fun ended => ?_,
      fun handle member => ?_⟩
    · rw [nothing ended, nothing' ((first.isDone id).trans ended)]
      rfl
    · rcases List.mem_append.mp member with early | late
      · obtain ⟨waiter, same, known⟩ := releases handle early
        exact ⟨waiter, same, second.bare known⟩
      · exact releases' handle late
  timed := by
    intro timer member
    rcases second.timed timer member with known | known
    · exact (first.timed timer known).imp_right second.bare
    · exact Or.inr known

end Grown

theorem grown_addFuture (loop : Loop π) : Grown loop loop.addFuture.2 where
  length := by simp
  outcome := by simp
  activity := by simp
  ready := ⟨[], by simp [addFuture], by simp⟩
  watchers := fun id => ⟨[], by simp, fun _ => rfl, by simp⟩
  timed := fun timer member => Or.inl member

theorem bare_addFuture (loop : Loop π) : loop.addFuture.2.Bare loop.futures.length :=
  ⟨by simp, by rw [activity?_addFuture, activity?_of_length_le loop (Nat.le_refl _)]⟩

theorem isPending_addFuture (loop : Loop π) :
    loop.addFuture.2.isPending loop.futures.length = true := by
  refine isPending_of_bare (bare_addFuture loop) ?_
  rw [outcome?_addFuture, outcome?_of_length_le loop (Nat.le_refl _)]

theorem grown_setTimer {waiter : Nat} (bare : loop.Bare waiter) (delay : Nat) :
    Grown loop (loop.setTimer delay waiter) where
  length := Nat.le_refl _
  outcome := fun _ => rfl
  activity := fun _ => rfl
  ready := ⟨[], by simp [setTimer], by simp⟩
  watchers := fun id => ⟨[], by simp [setTimer, watchers], fun _ => rfl, by simp⟩
  timed := by
    intro timer member
    rcases mem_insertTimer.mp member with same | known
    · subst same
      exact Or.inr bare
    · exact Or.inl known

theorem grown_watch {waiter : Nat} (bare : loop.Bare waiter) (id : Nat) :
    Grown loop (loop.watch id (.release waiter)) where
  length := by simp
  outcome := by simp
  activity := by simp
  ready := by
    rw [ready_watch]
    split
    · exact ⟨[.release waiter], rfl, by simpa [Bare] using bare⟩
    · exact ⟨[], by simp, by simp⟩
  watchers := by
    intro target
    rw [watchers_watch]
    split
    · next here =>
      refine ⟨[.release waiter], by rw [here.1], fun ended => ?_, by simpa [Bare] using bare⟩
      exact absurd (here.1 ▸ ended) (not_done_of_pending here.2)
    · exact ⟨[], by simp, fun _ => rfl, by simp⟩
  timed := fun timer member => Or.inl (by simpa using member)

theorem grown_advance (loop : Loop π) (duration : Nat) : Grown loop (loop.advance duration) where
  length := Nat.le_refl _
  outcome := fun _ => rfl
  activity := fun _ => rfl
  ready := ⟨[], by simp [advance], by simp⟩
  watchers := fun id => ⟨[], by simp [advance, watchers], fun _ => rfl, by simp⟩
  timed := fun timer member => Or.inl member

theorem grown_fireTimers (timed : ∀ timer ∈ loop.timers, loop.Bare timer.waiter) :
    Grown loop loop.fireTimers where
  length := Nat.le_refl _
  outcome := fun _ => rfl
  activity := fun _ => rfl
  ready := by
    refine ⟨_, rfl, fun handle member => ?_⟩
    obtain ⟨timer, due, rfl⟩ := List.mem_map.mp member
    exact ⟨timer.waiter, rfl, timed timer ((List.takeWhile_sublist _).subset due)⟩
  watchers := fun id => ⟨[], by simp [fireTimers, watchers], fun _ => rfl, by simp⟩
  timed := fun timer member => Or.inl ((List.dropWhile_sublist _).subset member)

/-! A task is told to be cancelled. -/

theorem unfinished_requestCancel (id task : Nat) (activity : Activity π) :
    (loop.requestCancel id).Unfinished task activity ↔
      ∃ before, loop.Unfinished task before ∧
        activity = if task = id then { before with cancelRequested := true } else before := by
  unfold Unfinished
  rw [activity?_requestCancel, outcome?_requestCancel]
  by_cases same : task = id
  · subst same
    rw [if_pos rfl]
    constructor
    · intro given
      obtain ⟨found, unsettled⟩ := given
      obtain ⟨before, known, rfl⟩ := Option.map_eq_some_iff.mp found
      exact ⟨before, ⟨known, unsettled⟩, by simp⟩
    · intro given
      obtain ⟨before, ⟨known, unsettled⟩, rfl⟩ := given
      exact ⟨by simp [known], unsettled⟩
  · simp only [if_neg same]
    exact ⟨fun known => ⟨activity, known, rfl⟩, by rintro ⟨before, known, rfl⟩; exact known⟩

@[simp] theorem waitingFor_ite (activity : Activity π) (c : Prop) [Decidable c] :
    (if c then { activity with cancelRequested := true } else activity).waitingFor =
      activity.waitingFor := by
  split <;> rfl

theorem bare_requestCancel (id waiter : Nat) :
    (loop.requestCancel id).Bare waiter ↔ loop.Bare waiter := by
  unfold Bare
  rw [length_requestCancel, activity?_requestCancel]
  split
  · next same =>
    subst same
    simp
  · rfl

theorem isDone_requestCancel (id target : Nat) :
    (loop.requestCancel id).isDone target = loop.isDone target := by
  simp [isDone]

/-- The chain of waits of one task comes to another. -/
inductive Reaches (loop : Loop π) : Nat → Nat → Prop where
  | here (id : Nat) : Reaches loop id id
  | there {id target last : Nat} {activity : Activity π} (unfinished : loop.Unfinished id activity)
    (waits : activity.waitingFor = some target) (later : Reaches loop target last) :
    Reaches loop id last

/-- What cancelling comes to, at the end of the chain of waits. -/
inductive Cancelled (loop : Loop π) (root : Nat) : Loop π → Prop where
  | nothing : Cancelled loop root loop
  | waiter (id : Nat) (bare : loop.Bare id) (pending : loop.isPending id = true)
    (reached : root = id ∨ ∃ sleeper activity, loop.Reaches root sleeper ∧
      loop.Unfinished sleeper activity ∧ activity.waitingFor = some id) :
    Cancelled loop root (loop.settle id .cancelled)
  | task (id : Nat) (activity : Activity π) (reached : loop.Reaches root id)
    (unfinished : loop.Unfinished id activity)
    (unslept : ∀ target, activity.waitingFor = some target → loop.isPending target ≠ true) :
    Cancelled loop root (loop.requestCancel id)

theorem Cancelled.earlier {root target : Nat} {activity : Activity π} {new : Loop π}
    (unfinished : loop.Unfinished root activity) (waits : activity.waitingFor = some target)
    (step : Cancelled loop target new) : Cancelled loop root new := by
  cases step with
  | nothing => exact .nothing
  | waiter id bare pending reached =>
    refine .waiter id bare pending (Or.inr ?_)
    rcases reached with rfl | ⟨sleeper, found, reached, known, sleeps⟩
    · exact ⟨root, activity, .here root, unfinished, waits⟩
    · exact ⟨sleeper, found, .there unfinished waits reached, known, sleeps⟩
  | task id found reached known unslept =>
    exact .task id found (.there unfinished waits reached) known unslept

theorem cancelled_cancelChain (fuel root : Nat) :
    Cancelled loop root (loop.cancelChain fuel root) := by
  induction fuel generalizing root with
  | zero => exact .nothing
  | succ fuel ih =>
    unfold cancelChain
    split
    · exact .nothing
    · next future found =>
      have inside : root < loop.futures.length := (List.getElem?_eq_some_iff.mp found).1
      split
      · exact .nothing
      · next unsettled =>
        have outcome : loop.outcome? root = none := by simpa [outcome?, found] using unsettled
        split
        · next none =>
          refine .waiter root ⟨inside, by simp [activity?, found, none]⟩ ?_ (Or.inl rfl)
          exact (isPending_iff loop root).mpr ⟨inside, outcome⟩
        · next activity some =>
          have known : loop.activity? root = Option.some activity := by
            simp [activity?, found, some]
          split
          · next free => exact .task root activity (.here root) ⟨known, outcome⟩ (by simp [free])
          · next target waits =>
            split
            · exact (ih target).earlier ⟨known, outcome⟩ waits
            · next idle =>
              refine .task root activity (.here root) ⟨known, outcome⟩ fun other waits' => ?_
              cases waits.symm.trans waits'
              exact idle

theorem cancelled_cancel (root : Nat) : Cancelled loop root (loop.cancel root) :=
  cancelled_cancelChain _ root

theorem Cancelled.length {root : Nat} {new : Loop π} (step : Cancelled loop root new) :
    new.futures.length = loop.futures.length := by
  cases step <;> simp

theorem Cancelled.ready {root : Nat} {new : Loop π} (step : Cancelled loop root new) :
    loop.ready <+: new.ready := by
  cases step with
  | nothing | task => exact List.prefix_refl _
  | waiter id => exact ready_prefix_settle loop id .cancelled

/-! A new task. -/

theorem unfinished_spawn (phase : π) (task : Nat) (activity : Activity π) :
    (loop.spawn phase).2.Unfinished task activity ↔
      (task = loop.futures.length ∧ activity = { phase }) ∨ loop.Unfinished task activity := by
  unfold Unfinished
  rw [activity?_spawn, outcome?_spawn]
  by_cases same : task = loop.futures.length
  · subst same
    simp [outcome?_of_length_le, activity?_of_length_le, eq_comm]
  · simp [same]

theorem bare_spawn (phase : π) (waiter : Nat) :
    (loop.spawn phase).2.Bare waiter ↔ loop.Bare waiter := by
  unfold Bare
  rw [activity?_spawn, length_spawn]
  constructor
  · intro given
    obtain ⟨inside, none⟩ := given
    split at none
    · cases none
    · exact ⟨by omega, none⟩
  · intro given
    obtain ⟨inside, none⟩ := given
    rw [if_neg (Nat.ne_of_lt inside)]
    exact ⟨by omega, none⟩

/-! The loop takes the first handle. -/

theorem isPending_setActivity (id k : Nat) (activity : Activity π) :
    (loop.setActivity id activity).isPending k = loop.isPending k :=
  isPending_congr (length_setActivity loop id activity) (outcome?_setActivity loop id k activity)

/-- The loop in which a task runs that was woken first. -/
def wakeFirst (loop : Loop π) (rest : List Handle) (task : Nat) (phase : π) : Loop π :=
  ({ loop with ready := rest }).setActivity task { phase }

theorem outcome?_wakeFirst (loop : Loop π) (rest : List Handle) (task : Nat) (phase : π) (id : Nat) :
    (loop.wakeFirst rest task phase).outcome? id = loop.outcome? id :=
  outcome?_setActivity ..

theorem watchers_wakeFirst (loop : Loop π) (rest : List Handle) (task : Nat) (phase : π) (id : Nat) :
    (loop.wakeFirst rest task phase).watchers id = loop.watchers id :=
  watchers_setActivity ..

theorem length_wakeFirst (loop : Loop π) (rest : List Handle) (task : Nat) (phase : π) :
    (loop.wakeFirst rest task phase).futures.length = loop.futures.length :=
  length_setActivity ..

theorem isDone_wakeFirst (loop : Loop π) (rest : List Handle) (task : Nat) (phase : π) (id : Nat) :
    (loop.wakeFirst rest task phase).isDone id = loop.isDone id := by
  rw [isDone, isDone, outcome?_wakeFirst]

theorem isPending_wakeFirst (loop : Loop π) (rest : List Handle) (task : Nat) (phase : π) (id : Nat) :
    (loop.wakeFirst rest task phase).isPending id = loop.isPending id :=
  isPending_setActivity ..

theorem unfinished_wakeFirst (rest : List Handle) {task : Nat} {activity : Activity π}
    (known : loop.Unfinished task activity) (phase : π) (other : Nat) (found : Activity π) :
    (loop.wakeFirst rest task phase).Unfinished other found ↔
      (other = task ∧ found = { phase }) ∨ (other ≠ task ∧ loop.Unfinished other found) := by
  unfold Unfinished wakeFirst
  rw [activity?_setActivity, outcome?_setActivity]
  by_cases same : other = task
  · subst same
    have inside : other < loop.futures.length := lt_of_activity? loop known.1
    have unsettled : ({ loop with ready := rest } : Loop π).outcome? other = none := known.2
    simp [inside, unsettled, eq_comm]
  · simp only [same, false_and, if_false, false_or, ne_eq, not_false_eq_true, true_and]
    rfl

theorem bare_wakeFirst {rest : List Handle} {task : Nat} {activity : Activity π}
    (known : loop.Unfinished task activity) (phase : π) (waiter : Nat) :
    (loop.wakeFirst rest task phase).Bare waiter ↔ loop.Bare waiter := by
  unfold Bare wakeFirst
  rw [activity?_setActivity, length_setActivity]
  by_cases same : waiter = task
  · subst same
    have inside : waiter < loop.futures.length := lt_of_activity? loop known.1
    simp [inside, known.1]
  · simp only [same, false_and, if_false]
    rfl

/-! The running task waits again. -/

theorem unfinished_park {task : Nat} {activity : Activity π} (known : loop.Unfinished task activity)
    (phase : π) (target other : Nat) (found : Activity π) :
    (loop.park task phase target).Unfinished other found ↔
      (other = task ∧ found = { phase, waitingFor := some target }) ∨
        (other ≠ task ∧ loop.Unfinished other found) := by
  unfold Unfinished park
  rw [activity?_watch, outcome?_watch, activity?_setActivity, outcome?_setActivity]
  by_cases same : other = task
  · subst same
    simp [lt_of_activity? loop known.1, known.2, eq_comm]
  · simp [same]

theorem bare_park {task : Nat} {activity : Activity π} (known : loop.Unfinished task activity)
    (phase : π) (target waiter : Nat) :
    (loop.park task phase target).Bare waiter ↔ loop.Bare waiter := by
  unfold Bare park
  rw [activity?_watch, length_watch, activity?_setActivity, length_setActivity]
  by_cases same : waiter = task
  · subst same
    simp [lt_of_activity? loop known.1, known.1]
  · simp [same]

theorem outcome?_park (task : Nat) (phase : π) (target id : Nat) :
    (loop.park task phase target).outcome? id = loop.outcome? id := by
  simp [park]

theorem length_park (task : Nat) (phase : π) (target : Nat) :
    (loop.park task phase target).futures.length = loop.futures.length := by
  simp [park]

theorem ready_park {target : Nat} (pending : loop.isPending target = true) (task : Nat) (phase : π) :
    (loop.park task phase target).ready = loop.ready := by
  have undone := not_done_of_pending pending
  have same : (loop.setActivity task { phase, waitingFor := some target }).isDone target =
      loop.isDone target := by
    simp [isDone]
  rw [park, ready_watch, same, if_neg undone]
  rfl

theorem watchers_park {target : Nat} (pending : loop.isPending target = true) (task : Nat) (phase : π)
    (id : Nat) : (loop.park task phase target).watchers id =
      if id = target then loop.watchers target ++ [.wake task] else loop.watchers id := by
  simp [park, watchers_watch, isPending_setActivity, pending]

/-! Who is released. -/

/-- Whoever is to be released is a bare future. -/
structure Lone (loop : Loop π) : Prop where
  ready : ∀ waiter, .release waiter ∈ loop.ready → loop.Bare waiter
  watched : ∀ target waiter, .release waiter ∈ loop.watchers target → loop.Bare waiter
  timed : ∀ timer ∈ loop.timers, loop.Bare timer.waiter

namespace Lone

theorem grown (lone : old.Lone) (grown : Grown old new) : new.Lone where
  ready := by
    intro waiter member
    obtain ⟨more, ready, releases⟩ := grown.ready
    rw [ready] at member
    rcases List.mem_append.mp member with known | added
    · exact grown.bare (lone.ready waiter known)
    · obtain ⟨other, same, bare⟩ := releases _ added
      cases same
      exact bare
  watched := by
    intro target waiter member
    obtain ⟨more, watchers, -, releases⟩ := grown.watchers target
    rw [watchers] at member
    rcases List.mem_append.mp member with known | added
    · exact grown.bare (lone.watched target waiter known)
    · obtain ⟨other, same, bare⟩ := releases _ added
      cases same
      exact bare
  timed := fun timer member => (grown.timed timer member).elim
    (fun known => grown.bare (lone.timed timer known)) fun bare => bare

theorem settle (lone : loop.Lone) (id : Nat) (o : Outcome) : (loop.settle id o).Lone where
  ready := by
    intro waiter member
    rw [bare_settle]
    rw [ready_settle] at member
    split at member
    · rcases List.mem_append.mp member with known | released
      · exact lone.ready waiter known
      · exact lone.watched id waiter released
    · exact lone.ready waiter member
  watched := by
    intro target waiter member
    rw [bare_settle]
    rw [watchers_settle] at member
    split at member
    · cases member
    · exact lone.watched target waiter member
  timed := by
    intro timer member
    rw [bare_settle]
    exact lone.timed timer (timers_settle loop id o ▸ member)

theorem settleAll (lone : loop.Lone) (waiters : List Nat) (o : Outcome) :
    (waiters.foldl (fun l waiter => l.settle waiter o) loop).Lone := by
  induction waiters generalizing loop with
  | nil => exact lone
  | cons waiter rest ih => exact ih (lone.settle waiter o)

theorem requestCancel (lone : loop.Lone) (id : Nat) : (loop.requestCancel id).Lone where
  ready := fun waiter member => (bare_requestCancel id waiter).mpr (lone.ready waiter member)
  watched := by
    intro target waiter member
    rw [watchers_requestCancel] at member
    exact (bare_requestCancel id waiter).mpr (lone.watched target waiter member)
  timed := fun timer member => (bare_requestCancel id _).mpr (lone.timed timer member)

theorem cancelled (lone : old.Lone) {root : Nat} (step : Cancelled old root new) : new.Lone := by
  cases step with
  | nothing => exact lone
  | waiter id => exact lone.settle id .cancelled
  | task id => exact lone.requestCancel id

theorem spawn (lone : loop.Lone) (phase : π) : (loop.spawn phase).2.Lone where
  ready := by
    intro waiter member
    rw [bare_spawn]
    have member : .release waiter ∈ loop.ready ++ [.wake loop.futures.length] := member
    rcases List.mem_append.mp member with known | added
    · exact lone.ready waiter known
    · cases List.mem_singleton.mp added
  watched := by
    intro target waiter member
    rw [watchers_spawn] at member
    exact (bare_spawn phase waiter).mpr (lone.watched target waiter member)
  timed := fun timer member => (bare_spawn phase _).mpr (lone.timed timer member)

/-- What else may change keeps the futures that were bare. -/
theorem of_same (lone : old.Lone)
    (ready : ∀ handle ∈ new.ready, handle ∈ old.ready ∨ ∃ task, handle = .wake task)
    (watchers : ∀ target, ∀ handle ∈ new.watchers target, handle ∈ old.watchers target ∨
      ∃ task, handle = .wake task)
    (timers : new.timers = old.timers) (bare : ∀ id, old.Bare id → new.Bare id) : new.Lone where
  ready := fun waiter member => (ready _ member).elim (fun known => bare _ (lone.ready waiter known))
    fun ⟨_, same⟩ => nomatch same
  watched := fun target waiter member => (watchers target _ member).elim
    (fun known => bare _ (lone.watched target waiter known)) fun ⟨_, same⟩ => nomatch same
  timed := fun timer member => bare _ (lone.timed timer (timers ▸ member))

end Lone

theorem Cancelled.bare {root : Nat} (step : Cancelled old root new) (id : Nat) :
    new.Bare id ↔ old.Bare id := by
  cases step with
  | nothing => exact Iff.rfl
  | waiter other => exact bare_settle other id .cancelled
  | task other => exact bare_requestCancel other id

theorem bare_settleAll (waiters : List Nat) (id : Nat) (o : Outcome) :
    (waiters.foldl (fun l waiter => l.settle waiter o) loop).Bare id ↔ loop.Bare id := by
  induction waiters generalizing loop with
  | nil => exact Iff.rfl
  | cons waiter rest ih => exact ih.trans (bare_settle waiter id o)

end InlineCompletion.Loop
