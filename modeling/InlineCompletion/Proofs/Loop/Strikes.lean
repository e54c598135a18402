import InlineCompletion.Proofs.Loop.Wakes

/-!
Where cancellations go. A task that is cancelled is struck until it has run: it was told so, or what
it waited for ended so. Between two runs of tasks an operation strikes only the tasks that it names,
and tells everyone of the ends that they wait for.
-/

namespace InlineCompletion.Loop

variable {π : Type} (loop : Loop π)

/-- The task goes on with a cancellation. -/
def Roused (activity : Activity π) : Prop :=
  activity.cancelRequested = true ∨
    ∃ target, activity.waitingFor = some target ∧ loop.outcome? target = some .cancelled

/-- The task ended by a cancellation, or runs with one, or will. -/
def Struck (running : Option (Nat × Outcome)) (task : Nat) : Prop :=
  running = some (task, .cancelled) ∨ loop.outcome? task = some .cancelled ∨
    ∃ activity, loop.Unfinished task activity ∧ loop.Roused activity

/-- The waiter is released when the future ends. -/
def Noted (id waiter : Nat) : Prop :=
  .release waiter ∈ loop.watchers id ∨ .release waiter ∈ loop.ready ∨ loop.isDone waiter = true

/-- Only the tasks named are struck; no task ends, and every release that was noted still is. -/
structure Stirred (struck : Nat → Prop) (old new : Loop π) : Prop where
  length : old.futures.length ≤ new.futures.length
  activity : ∀ id < old.futures.length, new.activity? id = old.activity? id ∨
    struck id ∧ new.activity? id = (old.activity? id).map fun a => { a with cancelRequested := true }
  outcome : ∀ id < old.futures.length, new.outcome? id = old.outcome? id ∨
    old.Bare id ∧ old.outcome? id = none ∧ (∀ failure, new.outcome? id ≠ some (.failed failure)) ∧
      (new.outcome? id = some .cancelled →
        ∀ task activity, old.Unfinished task activity → activity.waitingFor = some id → struck task)
  noted : ∀ id waiter, old.Noted id waiter → new.Noted id waiter

variable {loop} {running : Option (Nat × Outcome)}

theorem Roused.mono {old new : Loop π} {activity : Activity π} (roused : old.Roused activity)
    (kept : ∀ target, activity.waitingFor = some target → old.outcome? target = some .cancelled →
      new.outcome? target = some .cancelled) : new.Roused activity := by
  refine roused.imp_right fun given => ?_
  obtain ⟨target, waits, ended⟩ := given
  exact ⟨target, waits, kept target waits ended⟩

/-- Whoever is struck stays so as long as he goes on as he would have and what was cancelled stays so. -/
theorem Struck.mono {old new : Loop π} {before after : Option (Nat × Outcome)} {task : Nat}
    (hit : old.Struck before task)
    (idle : before = some (task, .cancelled) → after = some (task, .cancelled))
    (kept : ∀ id, old.outcome? id = some .cancelled → new.outcome? id = some .cancelled)
    (rests : ∀ activity, old.Unfinished task activity → new.Unfinished task activity) :
    new.Struck after task := by
  rcases hit with runs | ended | ⟨activity, unfinished, roused⟩
  · exact Or.inl (idle runs)
  · exact Or.inr (Or.inl (kept task ended))
  · exact Or.inr (Or.inr ⟨activity, rests activity unfinished, roused.mono fun target _ => kept target⟩)

theorem Sound.target_lt {current : Option Nat} (sound : loop.Sound current) {task target : Nat}
    {activity : Activity π} (unfinished : loop.Unfinished task activity)
    (waits : activity.waitingFor = some target) : target < loop.futures.length := by
  by_cases runs : current = some task
  · obtain ⟨found, known, idle⟩ := sound.runs task runs
    cases unfinished.unique known
    cases idle.symm.trans waits
  · rcases sound.rests task activity unfinished runs with awake | ⟨-, -, other, waits', pending, -⟩
    · have ended := awake.2 target waits
      rw [isDone_iff] at ended
      obtain ⟨o, found⟩ := Option.ne_none_iff_exists'.mp ended
      exact lt_of_outcome? loop found
    · cases waits.symm.trans waits'
      exact ((isPending_iff loop target).mp pending).1

namespace Stirred

variable {struck : Nat → Prop} {old new : Loop π}

theorem refl (loop : Loop π) : Stirred (fun _ => False) loop loop where
  length := Nat.le_refl _
  activity := fun _ _ => Or.inl rfl
  outcome := fun _ _ => Or.inl rfl
  noted := fun _ _ noted => noted

theorem bare (stirred : Stirred struck old new) {id : Nat} (bare : old.Bare id) : new.Bare id := by
  refine ⟨Nat.lt_of_lt_of_le bare.1 stirred.length, ?_⟩
  rcases stirred.activity id bare.1 with same | ⟨-, told⟩
  · rw [same, bare.2]
  · rw [told, bare.2]
    rfl

theorem ended (stirred : Stirred struck old new) {id : Nat} {o : Outcome}
    (ended : old.outcome? id = some o) : new.outcome? id = some o := by
  rcases stirred.outcome id (lt_of_outcome? old ended) with same | ⟨-, unsettled, -⟩
  · rw [same, ended]
  · cases ended.symm.trans unsettled

theorem isDone (stirred : Stirred struck old new) {id : Nat} (ended : old.isDone id = true) :
    new.isDone id = true := by
  rw [isDone_iff] at ended ⊢
  obtain ⟨o, found⟩ := Option.ne_none_iff_exists'.mp ended
  rw [stirred.ended found]
  nofun

theorem isPending (stirred : Stirred struck old new) {id : Nat} (known : id < old.futures.length)
    (pending : new.isPending id = true) : old.isPending id = true := by
  rw [isPending_iff] at pending ⊢
  refine ⟨known, ?_⟩
  rcases stirred.outcome id known with same | ⟨-, unsettled, -⟩
  · rw [← same]
    exact pending.2
  · exact unsettled

theorem task (stirred : Stirred struck old new) {id : Nat} {activity : Activity π}
    (known : old.activity? id = some activity) : new.outcome? id = old.outcome? id := by
  rcases stirred.outcome id (lt_of_activity? old known) with same | ⟨bare, -⟩
  · exact same
  · cases bare.2.symm.trans known

/-- A task that was there before goes on as it would have, unless it is struck. -/
theorem before (stirred : Stirred struck old new) {task : Nat} {activity : Activity π}
    (known : task < old.futures.length) (unfinished : new.Unfinished task activity) :
    ∃ found, old.Unfinished task found ∧ activity.phase = found.phase ∧
      activity.waitingFor = found.waitingFor ∧
      (activity.cancelRequested = true → found.cancelRequested = true ∨ struck task) := by
  rcases stirred.activity task known with same | ⟨hit, told⟩
  · have found := same.symm.trans unfinished.1
    have unsettled := (stirred.task found).symm.trans unfinished.2
    exact ⟨activity, ⟨found, unsettled⟩, rfl, rfl, Or.inl⟩
  · obtain ⟨found, known', rfl⟩ := Option.map_eq_some_iff.mp (told.symm.trans unfinished.1)
    have unsettled := (stirred.task known').symm.trans unfinished.2
    exact ⟨found, ⟨known', unsettled⟩, rfl, rfl, fun _ => Or.inr hit⟩

theorem after (stirred : Stirred struck old new) {task : Nat} {activity : Activity π}
    (unfinished : old.Unfinished task activity) :
    ∃ found, new.Unfinished task found ∧ found.phase = activity.phase ∧
      found.waitingFor = activity.waitingFor ∧
      (activity.cancelRequested = true → found.cancelRequested = true) := by
  have unsettled := (stirred.task unfinished.1).trans unfinished.2
  rcases stirred.activity task unfinished.lt with same | ⟨-, told⟩
  · exact ⟨activity, ⟨same.trans unfinished.1, unsettled⟩, rfl, rfl, id⟩
  · refine ⟨{ activity with cancelRequested := true }, ⟨?_, unsettled⟩, rfl, rfl, fun _ => rfl⟩
    rw [told, unfinished.1]
    rfl

theorem cancelled (stirred : Stirred struck old new) {current : Option Nat}
    (sound : old.Sound current) {task target : Nat} {activity : Activity π}
    (unfinished : old.Unfinished task activity) (waits : activity.waitingFor = some target)
    (ended : new.outcome? target = some .cancelled) :
    old.outcome? target = some .cancelled ∨ struck task := by
  rcases stirred.outcome target (sound.target_lt unfinished waits) with same | ⟨-, -, -, hits⟩
  · exact Or.inl (same ▸ ended)
  · exact Or.inr (hits ended task activity unfinished waits)

/-- Nobody else is struck. -/
theorem struck_before (stirred : Stirred struck old new) {current : Option Nat}
    (sound : old.Sound current) {task : Nat} {activity : Activity π}
    (known : old.activity? task = some activity) (hit : new.Struck running task) :
    old.Struck running task ∨ struck task := by
  rcases hit with runs | ended | ⟨found, unfinished, roused⟩
  · exact Or.inl (Or.inl runs)
  · exact Or.inl (Or.inr (Or.inl (stirred.task known ▸ ended)))
  · obtain ⟨before, unfinished', -, waiting, told⟩ :=
      stirred.before (lt_of_activity? old known) unfinished
    rcases roused with requested | ⟨target, waits, ended⟩
    · refine (told requested).imp_left fun requested => ?_
      exact Or.inr (Or.inr ⟨before, unfinished', Or.inl requested⟩)
    · rw [waiting] at waits
      refine (stirred.cancelled sound unfinished' waits ended).imp_left fun ended => ?_
      exact Or.inr (Or.inr ⟨before, unfinished', Or.inr ⟨target, waits, ended⟩⟩)

theorem struck_after (stirred : Stirred struck old new) {task : Nat}
    (hit : old.Struck running task) : new.Struck running task := by
  rcases hit with runs | ended | ⟨found, unfinished, roused⟩
  · exact Or.inl runs
  · exact Or.inr (Or.inl (stirred.ended ended))
  · obtain ⟨after, unfinished', -, waiting, told⟩ := stirred.after unfinished
    refine Or.inr (Or.inr ⟨after, unfinished', ?_⟩)
    rcases roused with requested | ⟨target, waits, ended⟩
    · exact Or.inl (told requested)
    · exact Or.inr ⟨target, waiting ▸ waits, stirred.ended ended⟩

end Stirred

theorem Grown.stirred {old new : Loop π} (grown : Grown old new) :
    Stirred (fun _ => False) old new where
  length := grown.length
  activity := fun id _ => Or.inl (grown.activity id)
  outcome := fun id _ => Or.inl (grown.outcome id)
  noted := by
    intro id waiter noted
    rcases noted with watched | ready | ended
    · obtain ⟨more, same, -⟩ := grown.watchers id
      exact Or.inl (same ▸ List.mem_append_left _ watched)
    · obtain ⟨more, same, -⟩ := grown.ready
      exact Or.inr (Or.inl (same ▸ List.mem_append_left _ ready))
    · exact Or.inr (Or.inr ((grown.isDone waiter).trans ended))

theorem noted_settle {id waiter : Nat} (ended : Nat) (o : Outcome) (noted : loop.Noted id waiter) :
    (loop.settle ended o).Noted id waiter := by
  unfold Noted at noted ⊢
  rw [watchers_settle, ready_settle]
  by_cases pending : loop.isPending ended = true
  · rcases noted with watched | ready | past
    · by_cases same : id = ended
      · subst same
        simp [pending, watched]
      · simp [same, watched]
    · simp [pending, ready]
    · exact Or.inr (Or.inr (isDone_settle_of_isDone ended o past))
  · rw [settle_of_not_pending loop o pending]
    simpa [pending] using noted

theorem stirred_settle {id : Nat} (bare : loop.Bare id) {o : Outcome}
    (succeeds : ∀ failure, o ≠ .failed failure) {struck : Nat → Prop}
    (hits : o = .cancelled → ∀ task activity, loop.Unfinished task activity →
      activity.waitingFor = some id → struck task) :
    Stirred struck loop (loop.settle id o) where
  length := by simp
  activity := fun other _ => Or.inl (activity?_settle loop id other o)
  outcome := by
    intro other _
    rw [outcome?_settle]
    split
    · next here =>
      obtain ⟨rfl, pending⟩ := here
      refine Or.inr ⟨bare, ((isPending_iff loop other).mp pending).2, ?_, ?_⟩
      · intro failure same
        exact succeeds failure (Option.some.inj same)
      · exact fun same => hits (Option.some.inj same)
    · exact Or.inl rfl
  noted := fun _ _ => noted_settle id o

theorem stirred_requestCancel (loop : Loop π) (id : Nat) :
    Stirred (· = id) loop (loop.requestCancel id) where
  length := by simp
  activity := by
    intro other _
    rw [activity?_requestCancel]
    split
    · next same => exact Or.inr ⟨same, by rw [same]⟩
    · exact Or.inl rfl
  outcome := fun other _ => Or.inl (outcome?_requestCancel loop id other)
  noted := by
    intro other waiter noted
    unfold Noted
    rw [watchers_requestCancel, isDone_requestCancel]
    exact noted

theorem stirred_spawn (loop : Loop π) (phase : π) :
    Stirred (fun _ => False) loop (loop.spawn phase).2 where
  length := by simp
  activity := by
    intro id known
    left
    rw [activity?_spawn, if_neg (Nat.ne_of_lt known)]
  outcome := fun id _ => Or.inl (outcome?_spawn loop phase id)
  noted := by
    intro id waiter noted
    unfold Noted
    rw [watchers_spawn, show (loop.spawn phase).2.isDone waiter = loop.isDone waiter by simp [isDone]]
    exact noted.imp_right (Or.imp_left (List.mem_append_left _))

theorem Stirred.mono {struck more : Nat → Prop} {old new : Loop π} (stirred : Stirred struck old new)
    (weaker : ∀ id, struck id → more id) : Stirred more old new where
  length := stirred.length
  activity := fun id known => (stirred.activity id known).imp_right (And.imp_left (weaker id))
  outcome := fun id known => (stirred.outcome id known).imp_right fun ⟨bare, unsettled, calm, hits⟩ =>
    ⟨bare, unsettled, calm, fun ended task activity unfinished waits =>
      weaker task (hits ended task activity unfinished waits)⟩
  noted := stirred.noted

/-- A task on the chain of waits that has not ended. -/
def Chained (loop : Loop π) (root last : Nat) : Prop :=
  loop.Reaches root last ∧ ∃ activity, loop.Unfinished last activity

/-- A cancellation strikes nobody who is not on the chain of waits. -/
theorem Cancelled.stirred {current : Option Nat} (sound : loop.Sound current) {root : Nat}
    {activity : Activity π} (known : loop.activity? root = some activity) {new : Loop π}
    (step : Cancelled loop root new) : Stirred (loop.Chained root) loop new := by
  cases step with
  | nothing => exact (Stirred.refl loop).mono fun _ => False.elim
  | waiter id bare pending reached =>
    have calm : ∀ failure, Outcome.cancelled ≠ .failed failure := nofun
    refine stirred_settle bare calm fun _ task found unfinished waits => ?_
    rcases reached with rfl | ⟨sleeper, other, reached, unfinished', waits'⟩
    · cases bare.2.symm.trans known
    · rw [sound.alone task sleeper found other id unfinished unfinished' waits waits']
      exact ⟨reached, other, unfinished'⟩
  | task id found reached unfinished unslept =>
    exact (stirred_requestCancel loop id).mono fun task same => same ▸ ⟨reached, found, unfinished⟩

/-- Whoever it strikes, no task ends. -/
theorem Cancelled.stirred_any {root : Nat} {new : Loop π} (step : Cancelled loop root new) :
    Stirred (fun _ => True) loop new := by
  have calm : ∀ failure, Outcome.cancelled ≠ .failed failure := nofun
  cases step with
  | nothing => exact (Stirred.refl loop).mono fun _ => False.elim
  | waiter id bare => exact stirred_settle bare calm fun _ _ _ _ _ => trivial
  | task id => exact (stirred_requestCancel loop id).mono fun _ _ => trivial

/-- What nobody waits for does not end when something else is cancelled. -/
theorem Cancelled.outcome_eq {root id : Nat} {new : Loop π} (step : Cancelled loop root new)
    (other : root ≠ id)
    (free : ∀ task activity, loop.Unfinished task activity → activity.waitingFor ≠ some id) :
    new.outcome? id = loop.outcome? id := by
  cases step with
  | nothing => rfl
  | waiter target bare pending reached =>
    rw [outcome?_settle, if_neg]
    intro given
    obtain ⟨rfl, -⟩ := given
    rcases reached with same | ⟨sleeper, activity, -, unfinished, waits⟩
    · exact other same
    · exact free sleeper activity unfinished waits
  | task target => exact outcome?_requestCancel ..

theorem isDone_cancel {id : Nat} (root : Nat) (ended : loop.isDone id = true) :
    (loop.cancel root).isDone id = true := by
  generalize step : loop.cancel root = new
  have cancelled : Cancelled loop root new := step ▸ cancelled_cancel root
  cases cancelled with
  | nothing => exact ended
  | waiter other => exact isDone_settle_of_isDone other .cancelled ended
  | task other =>
    rw [isDone_requestCancel]
    exact ended

/-- A task that waits for no other task is where its own chain of waits ends. -/
def Leaf (loop : Loop π) (task : Nat) : Prop :=
  ∀ activity target, loop.Unfinished task activity → activity.waitingFor = some target →
    loop.Bare target

theorem Leaf.chained {task last : Nat} (leaf : loop.Leaf task) (chained : loop.Chained task last) :
    last = task := by
  obtain ⟨reached, activity, known, -⟩ := chained
  cases reached with
  | here => rfl
  | there unfinished waits later =>
    have bare := leaf _ _ unfinished waits
    cases later with
    | here => cases bare.2.symm.trans known
    | there unfinished' _ _ => cases bare.2.symm.trans unfinished'.1

/-! Following a chain of waits. -/

theorem future_of_unfinished {task : Nat} {activity : Activity π}
    (unfinished : loop.Unfinished task activity) : ∃ future, loop.futures[task]? = some future ∧
      future.activity = some activity ∧ future.outcome = none := by
  obtain ⟨future, found, known⟩ : ∃ future, loop.futures[task]? = some future ∧
      future.activity = some activity := Option.bind_eq_some_iff.mp unfinished.1
  exact ⟨future, found, known, by simpa [outcome?, found] using unfinished.2⟩

theorem cancelChain_of_waits {task target : Nat} {activity : Activity π}
    (unfinished : loop.Unfinished task activity) (waits : activity.waitingFor = some target)
    (pending : loop.isPending target = true) (fuel : Nat) :
    loop.cancelChain (fuel + 1) task = loop.cancelChain fuel target := by
  obtain ⟨future, found, known, unsettled⟩ := future_of_unfinished unfinished
  rw [cancelChain, found]
  simp [unsettled, known, waits, pending]

theorem cancelChain_of_awake {task : Nat} {activity : Activity π}
    (unfinished : loop.Unfinished task activity)
    (awake : ∀ target, activity.waitingFor = some target → loop.isPending target ≠ true) (fuel : Nat) :
    loop.cancelChain (fuel + 1) task = loop.requestCancel task := by
  obtain ⟨future, found, known, unsettled⟩ := future_of_unfinished unfinished
  rw [cancelChain, found]
  cases waits : activity.waitingFor with
  | none => simp [unsettled, known, waits]
  | some target => simp [unsettled, known, waits, awake target waits]

theorem cancelChain_of_bare {waiter : Nat} (bare : loop.Bare waiter)
    (pending : loop.isPending waiter = true) (fuel : Nat) :
    loop.cancelChain (fuel + 1) waiter = loop.settle waiter .cancelled := by
  obtain ⟨future, found⟩ : ∃ future, loop.futures[waiter]? = some future :=
    ⟨_, List.getElem?_eq_getElem bare.1⟩
  have none : future.activity = none := by simpa [activity?, found] using bare.2
  have unsettled : future.outcome = Option.none := by
    simpa [outcome?, found] using ((isPending_iff loop waiter).mp pending).2
  rw [cancelChain, found]
  simp [unsettled, none]

/-- A leaf is struck when a chain of waits comes to it, if there is fuel for what it waits for. -/
theorem Leaf.struck_cancelChain {task : Nat} {activity : Activity π} (leaf : loop.Leaf task)
    (unfinished : loop.Unfinished task activity) {fuel : Nat}
    (enough : ∀ target, activity.waitingFor = some target → 1 ≤ fuel) :
    (loop.cancelChain (fuel + 1) task).Struck running task := by
  by_cases asleep : ∃ target, activity.waitingFor = some target ∧ loop.isPending target = true
  · obtain ⟨target, waits, pending⟩ := asleep
    have bare := leaf activity target unfinished waits
    obtain ⟨fuel, rfl⟩ : ∃ less, fuel = less + 1 := ⟨fuel - 1, by have := enough target waits; omega⟩
    rw [cancelChain_of_waits unfinished waits pending, cancelChain_of_bare bare pending]
    refine Or.inr (Or.inr ⟨activity, ?_, Or.inr ⟨target, waits, ?_⟩⟩)
    · exact (unfinished_settle_of_bare bare .cancelled task activity).mpr unfinished
    · rw [outcome?_settle, if_pos ⟨rfl, pending⟩]
  · rw [cancelChain_of_awake unfinished fun target waits pending => asleep ⟨target, waits, pending⟩]
    refine Or.inr (Or.inr ⟨_, (unfinished_requestCancel task task _).mpr ⟨activity, unfinished, rfl⟩, ?_⟩)
    exact Or.inl (by simp)

theorem Leaf.ne {task : Nat} {activity : Activity π} (leaf : loop.Leaf task)
    (unfinished : loop.Unfinished task activity) {target : Nat}
    (waits : activity.waitingFor = some target) : target ≠ task := by
  intro same
  subst same
  cases (leaf activity target unfinished waits).2.symm.trans unfinished.1

theorem Leaf.struck_cancel {task : Nat} {activity : Activity π} (leaf : loop.Leaf task)
    (unfinished : loop.Unfinished task activity) : (loop.cancel task).Struck running task := by
  have inside := unfinished.lt
  obtain ⟨fuel, length⟩ : ∃ fuel, loop.futures.length = fuel + 1 :=
    ⟨loop.futures.length - 1, by omega⟩
  unfold cancel
  rw [length]
  refine leaf.struck_cancelChain unfinished fun target waits => ?_
  have room : target < loop.futures.length := (leaf activity target unfinished waits).1
  have different := leaf.ne unfinished waits
  omega

/-- A task that waits for a leaf has the leaf struck when it is cancelled, if it is not struck
itself. -/
theorem Leaf.struck_cancel_waiting {task target : Nat} {activity found : Activity π}
    (leaf : loop.Leaf target) (unfinished : loop.Unfinished task activity)
    (waits : activity.waitingFor = some target) (known : loop.activity? target = some found)
    (different : target ≠ task) : (loop.cancel task).Struck running task ∨
      (loop.cancel task).Struck running target := by
  have inside := unfinished.lt
  have there := lt_of_activity? loop known
  obtain ⟨fuel, length⟩ : ∃ fuel, loop.futures.length = fuel + 2 :=
    ⟨loop.futures.length - 2, by omega⟩
  unfold cancel
  rw [length]
  by_cases pending : loop.isPending target = true
  · right
    have going : loop.Unfinished target found := ⟨known, ((isPending_iff loop target).mp pending).2⟩
    rw [cancelChain_of_waits unfinished waits pending]
    refine leaf.struck_cancelChain going fun waiter sleeps => ?_
    have bare := leaf found waiter going sleeps
    have room : waiter < loop.futures.length := bare.1
    have apart := leaf.ne going sleeps
    have apart' : waiter ≠ task := by
      intro same
      subst same
      cases bare.2.symm.trans unfinished.1
    omega
  · left
    rw [cancelChain_of_awake unfinished]
    · refine Or.inr (Or.inr ⟨_, (unfinished_requestCancel task task _).mpr
        ⟨activity, unfinished, rfl⟩, ?_⟩)
      exact Or.inl (by simp)
    · intro other waits' pending'
      cases waits.symm.trans waits'
      exact pending pending'

end InlineCompletion.Loop
