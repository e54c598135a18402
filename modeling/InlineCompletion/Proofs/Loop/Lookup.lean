import InlineCompletion.Loop.Basic

/-! What each operation on a loop does to the outcome, the activity and the watchers of every
future. Nothing else about the list of futures is needed later. -/

namespace InlineCompletion.Loop

variable {π : Type} (loop : Loop π)

/-- What becomes ready when the future ends. -/
def watchers (id : Nat) : List Handle :=
  (loop.futures[id]?.map (·.watchers)).getD []

/-- A future that is no task. -/
def Bare (id : Nat) : Prop :=
  id < loop.futures.length ∧ loop.activity? id = none

theorem isPending_iff (id : Nat) :
    loop.isPending id = true ↔ id < loop.futures.length ∧ loop.outcome? id = none := by
  unfold isPending outcome?
  cases found : loop.futures[id]? with
  | none => simpa using found
  | some future =>
    have inside : id < loop.futures.length := (List.getElem?_eq_some_iff.mp found).1
    simp [inside]

theorem isDone_iff (id : Nat) : loop.isDone id = true ↔ loop.outcome? id ≠ none := by
  unfold isDone
  exact Option.isSome_iff_ne_none

theorem outcome?_of_length_le {id : Nat} (outside : loop.futures.length ≤ id) :
    loop.outcome? id = none := by
  simp [outcome?, List.getElem?_eq_none outside]

theorem activity?_of_length_le {id : Nat} (outside : loop.futures.length ≤ id) :
    loop.activity? id = none := by
  simp [activity?, List.getElem?_eq_none outside]

theorem lt_of_activity? {id : Nat} {activity : Activity π}
    (found : loop.activity? id = some activity) : id < loop.futures.length := by
  refine Nat.lt_of_not_le fun outside => ?_
  rw [activity?_of_length_le loop outside] at found
  cases found

theorem lt_of_outcome? {id : Nat} {outcome : Outcome} (found : loop.outcome? id = some outcome) :
    id < loop.futures.length := by
  refine Nat.lt_of_not_le fun outside => ?_
  rw [outcome?_of_length_le loop outside] at found
  cases found

/-! One future changes. -/

theorem futures_modifyFuture (id k : Nat) (f : Future π → Future π) :
    (loop.modifyFuture id f).futures[k]? =
      if id = k then loop.futures[k]?.map f else loop.futures[k]? := by
  rw [modifyFuture, List.getElem?_modify]
  split <;> simp

/-- What the change keeps of a future can be read off any future afterwards. -/
theorem read_modifyFuture {α : Type} (read : Option (Future π) → α) {f : Future π → Future π}
    (kept : ∀ future, read (some (f future)) = read (some future)) (id k : Nat) :
    read (loop.modifyFuture id f).futures[k]? = read loop.futures[k]? := by
  rw [futures_modifyFuture]
  split
  · cases loop.futures[k]? with
    | none => rfl
    | some future => exact kept future
  · rfl

theorem outcome?_modifyFuture {f : Future π → Future π}
    (kept : ∀ future, (f future).outcome = future.outcome) (id k : Nat) :
    (loop.modifyFuture id f).outcome? k = loop.outcome? k :=
  loop.read_modifyFuture (fun found => found.bind (·.outcome)) kept id k

theorem activity?_modifyFuture {f : Future π → Future π}
    (kept : ∀ future, (f future).activity = future.activity) (id k : Nat) :
    (loop.modifyFuture id f).activity? k = loop.activity? k :=
  loop.read_modifyFuture (fun found => found.bind (·.activity)) kept id k

theorem watchers_modifyFuture {f : Future π → Future π}
    (kept : ∀ future, (f future).watchers = future.watchers) (id k : Nat) :
    (loop.modifyFuture id f).watchers k = loop.watchers k :=
  loop.read_modifyFuture (fun found => (found.map Future.watchers).getD []) kept id k

@[simp] theorem length_modifyFuture (id : Nat) (f : Future π → Future π) :
    (loop.modifyFuture id f).futures.length = loop.futures.length := by
  simp [modifyFuture]

theorem activity?_setActivity (id k : Nat) (activity : Activity π) :
    (loop.setActivity id activity).activity? k =
      if k = id ∧ id < loop.futures.length then some activity else loop.activity? k := by
  unfold setActivity activity?
  rw [futures_modifyFuture]
  by_cases same : id = k
  · subst same
    by_cases inside : id < loop.futures.length
    · simp [inside]
    · simp [inside]
  · simp [same, Ne.symm same]

@[simp] theorem outcome?_setActivity (id k : Nat) (activity : Activity π) :
    (loop.setActivity id activity).outcome? k = loop.outcome? k :=
  loop.outcome?_modifyFuture (by intro; rfl) id k

@[simp] theorem watchers_setActivity (id k : Nat) (activity : Activity π) :
    (loop.setActivity id activity).watchers k = loop.watchers k :=
  loop.watchers_modifyFuture (by intro; rfl) id k

@[simp] theorem length_setActivity (id : Nat) (activity : Activity π) :
    (loop.setActivity id activity).futures.length = loop.futures.length := by
  simp [setActivity]

theorem activity?_requestCancel (id k : Nat) :
    (loop.requestCancel id).activity? k =
      if k = id then (loop.activity? id).map fun a => { a with cancelRequested := true }
      else loop.activity? k := by
  unfold requestCancel activity?
  rw [futures_modifyFuture]
  by_cases same : id = k
  · subst same
    cases loop.futures[id]? <;> simp
  · simp [same, Ne.symm same]

@[simp] theorem outcome?_requestCancel (id k : Nat) :
    (loop.requestCancel id).outcome? k = loop.outcome? k :=
  loop.outcome?_modifyFuture (by intro; rfl) id k

@[simp] theorem watchers_requestCancel (id k : Nat) :
    (loop.requestCancel id).watchers k = loop.watchers k :=
  loop.watchers_modifyFuture (by intro; rfl) id k

@[simp] theorem length_requestCancel (id : Nat) :
    (loop.requestCancel id).futures.length = loop.futures.length := by
  simp [requestCancel]

/-! A future ends. -/

theorem settle_of_pending {id : Nat} (o : Outcome) (pending : loop.isPending id = true) :
    loop.settle id o =
      (loop.modifyFuture id fun f => { f with outcome := some o, watchers := [] }).enqueue
        (loop.watchers id) := by
  unfold isPending at pending
  unfold settle watchers
  cases found : loop.futures[id]? with
  | none => simp [found] at pending
  | some future =>
    have unsettled : future.outcome = none := by simpa [found] using pending
    simp [unsettled]

theorem settle_of_not_pending {id : Nat} (o : Outcome) (ended : loop.isPending id ≠ true) :
    loop.settle id o = loop := by
  unfold isPending at ended
  unfold settle
  cases found : loop.futures[id]? with
  | none => rfl
  | some future =>
    have settled : future.outcome ≠ none := by simpa [found] using ended
    simp [Option.isSome_iff_ne_none.mpr settled]

theorem outcome?_settle (id k : Nat) (o : Outcome) :
    (loop.settle id o).outcome? k =
      if k = id ∧ loop.isPending id = true then some o else loop.outcome? k := by
  by_cases pending : loop.isPending id = true
  · rw [settle_of_pending loop o pending]
    have inside := ((isPending_iff loop id).mp pending).1
    unfold outcome? enqueue
    rw [futures_modifyFuture]
    by_cases same : id = k
    · subst same
      simp [pending, inside]
    · simp [same, Ne.symm same]
  · simp [settle_of_not_pending loop o pending, pending]

@[simp] theorem activity?_settle (id k : Nat) (o : Outcome) :
    (loop.settle id o).activity? k = loop.activity? k := by
  by_cases pending : loop.isPending id = true
  · rw [settle_of_pending loop o pending]
    exact loop.activity?_modifyFuture (by intro; rfl) id k
  · rw [settle_of_not_pending loop o pending]

theorem watchers_settle (id k : Nat) (o : Outcome) :
    (loop.settle id o).watchers k =
      if k = id ∧ loop.isPending id = true then [] else loop.watchers k := by
  by_cases pending : loop.isPending id = true
  · rw [settle_of_pending loop o pending]
    have inside := ((isPending_iff loop id).mp pending).1
    unfold watchers enqueue
    rw [futures_modifyFuture]
    by_cases same : id = k
    · subst same
      simp [pending, inside]
    · simp [same, Ne.symm same]
  · simp [settle_of_not_pending loop o pending, pending]

theorem ready_settle (id : Nat) (o : Outcome) :
    (loop.settle id o).ready =
      if loop.isPending id = true then loop.ready ++ loop.watchers id else loop.ready := by
  by_cases pending : loop.isPending id = true
  · rw [settle_of_pending loop o pending, if_pos pending]
    rfl
  · rw [settle_of_not_pending loop o pending, if_neg pending]

theorem ready_prefix_settle (id : Nat) (o : Outcome) : loop.ready <+: (loop.settle id o).ready := by
  rw [ready_settle]
  split
  · exact List.prefix_append ..
  · exact List.prefix_refl _

@[simp] theorem length_settle (id : Nat) (o : Outcome) :
    (loop.settle id o).futures.length = loop.futures.length := by
  by_cases pending : loop.isPending id = true
  · simp [settle_of_pending loop o pending, enqueue]
  · rw [settle_of_not_pending loop o pending]

@[simp] theorem timers_settle (id : Nat) (o : Outcome) : (loop.settle id o).timers = loop.timers := by
  by_cases pending : loop.isPending id = true
  · rw [settle_of_pending loop o pending]
    rfl
  · rw [settle_of_not_pending loop o pending]

/-! Something watches a future. -/

@[simp] theorem outcome?_watch (id k : Nat) (handle : Handle) :
    (loop.watch id handle).outcome? k = loop.outcome? k := by
  unfold watch
  split
  · rfl
  · exact loop.outcome?_modifyFuture (by intro; rfl) id k

@[simp] theorem activity?_watch (id k : Nat) (handle : Handle) :
    (loop.watch id handle).activity? k = loop.activity? k := by
  unfold watch
  split
  · rfl
  · exact loop.activity?_modifyFuture (by intro; rfl) id k

theorem watchers_watch (id k : Nat) (handle : Handle) :
    (loop.watch id handle).watchers k =
      if k = id ∧ loop.isPending id = true then loop.watchers id ++ [handle]
      else loop.watchers k := by
  unfold watch
  split
  · next ended =>
    have idle : ¬loop.isPending id = true := by
      rw [isPending_iff]
      exact fun pending => (isDone_iff loop id).mp ended pending.2
    simp [idle, enqueue, watchers]
  · next unsettled =>
    have running : loop.outcome? id = none :=
      Decidable.not_not.mp fun ended => unsettled ((isDone_iff loop id).mpr ended)
    unfold watchers
    rw [futures_modifyFuture]
    by_cases same : id = k
    · subst same
      by_cases inside : id < loop.futures.length
      · simp [isPending_iff, inside, running]
      · simp [isPending_iff, inside]
    · simp [same, Ne.symm same]

theorem ready_watch (id : Nat) (handle : Handle) :
    (loop.watch id handle).ready =
      if loop.isDone id = true then loop.ready ++ [handle] else loop.ready := by
  unfold watch
  split <;> rfl

@[simp] theorem length_watch (id : Nat) (handle : Handle) :
    (loop.watch id handle).futures.length = loop.futures.length := by
  unfold watch
  split
  · rfl
  · simp

@[simp] theorem timers_watch (id : Nat) (handle : Handle) :
    (loop.watch id handle).timers = loop.timers := by
  unfold watch
  split <;> rfl

/-! New futures. -/

/-- What a new future has nothing of is read off the futures as before. -/
theorem read_append {α : Type} (read : Option (Future π) → α) (futures : List (Future π))
    {future : Future π} (nothing : read (some future) = read none) (k : Nat) :
    read (futures ++ [future])[k]? = read futures[k]? := by
  rcases Nat.lt_trichotomy k futures.length with inside | same | outside
  · rw [List.getElem?_append_left inside]
  · subst same
    simpa using nothing
  · rw [List.getElem?_eq_none (by simp; omega), List.getElem?_eq_none (by omega)]

@[simp] theorem outcome?_addFuture (k : Nat) :
    loop.addFuture.2.outcome? k = loop.outcome? k :=
  read_append (fun found => found.bind (·.outcome)) loop.futures rfl k

@[simp] theorem activity?_addFuture (k : Nat) :
    loop.addFuture.2.activity? k = loop.activity? k :=
  read_append (fun found => found.bind (·.activity)) loop.futures rfl k

@[simp] theorem watchers_addFuture (k : Nat) :
    loop.addFuture.2.watchers k = loop.watchers k :=
  read_append (fun found => (found.map Future.watchers).getD []) loop.futures rfl k

@[simp] theorem length_addFuture : loop.addFuture.2.futures.length = loop.futures.length + 1 := by
  simp [addFuture]

@[simp] theorem outcome?_spawn (phase : π) (k : Nat) :
    (loop.spawn phase).2.outcome? k = loop.outcome? k :=
  read_append (fun found => found.bind (·.outcome)) loop.futures rfl k

theorem activity?_spawn (phase : π) (k : Nat) :
    (loop.spawn phase).2.activity? k =
      if k = loop.futures.length then some { phase } else loop.activity? k := by
  unfold spawn activity?
  rcases Nat.lt_trichotomy k loop.futures.length with inside | same | outside
  · simp [List.getElem?_append_left inside, Nat.ne_of_lt inside]
  · subst same
    simp
  · rw [List.getElem?_eq_none (by simp; omega), List.getElem?_eq_none (by omega)]
    simp [Nat.ne_of_gt outside]

@[simp] theorem watchers_spawn (phase : π) (k : Nat) :
    (loop.spawn phase).2.watchers k = loop.watchers k :=
  read_append (fun found => (found.map Future.watchers).getD []) loop.futures rfl k

@[simp] theorem length_spawn (phase : π) :
    (loop.spawn phase).2.futures.length = loop.futures.length + 1 := by
  simp [spawn]

/-! Timers. -/

theorem mem_insertTimer {timer other : Timer} {timers : List Timer} :
    other ∈ insertTimer timer timers ↔ other = timer ∨ other ∈ timers := by
  induction timers with
  | nil => simp [insertTimer]
  | cons first rest ih =>
    unfold insertTimer
    split
    · simp
    · rw [List.mem_cons, ih, List.mem_cons]
      exact or_left_comm

end InlineCompletion.Loop
