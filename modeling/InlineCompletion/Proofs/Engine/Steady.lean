import InlineCompletion.Proofs.Engine.Handover

/-!
While a task runs, the others stay where they are: each goes on from the same phase and waits for the
same future, and the tasks that are new have yet to start. Who is ready keeps their place, and who is to
be cancelled will be.
-/

namespace InlineCompletion.Engine

open Loop (Stirred Grown Cancelled)

variable {engine : Engine} {touched struck : Nat → Prop} {running : Option (Nat × Outcome)}

structure Steady (old new : Engine) : Prop where
  length : old.loop.futures.length ≤ new.loop.futures.length
  ready : old.loop.ready <+: new.loop.ready
  ended : ∀ id outcome, old.loop.outcome? id = some outcome → new.loop.outcome? id = some outcome
  failed : ∀ id failure, new.loop.outcome? id = some (.failed failure) →
    old.loop.outcome? id = some (.failed failure)
  after : ∀ task activity, old.loop.Unfinished task activity →
    ∃ found, new.loop.Unfinished task found ∧ found.phase = activity.phase ∧
      found.waitingFor = activity.waitingFor
  before : ∀ task activity, new.loop.Unfinished task activity →
    (∃ found, old.loop.Unfinished task found ∧ found.phase = activity.phase ∧
      found.waitingFor = activity.waitingFor) ∨
    old.loop.futures.length ≤ task ∧ activity.waitingFor = none ∧
      ∃ job, activity.phase = .start job ∧ ∀ orchestrator document position,
        job ≠ .complete orchestrator document position
  struck : ∀ task, old.loop.Struck none task → new.loop.Struck none task

namespace Steady

variable {old new last : Engine}

theorem refl (engine : Engine) : Steady engine engine where
  length := Nat.le_refl _
  ready := List.prefix_refl _
  ended := fun _ _ ended => ended
  failed := fun _ _ failed => failed
  after := fun _ activity unfinished => ⟨activity, unfinished, rfl, rfl⟩
  before := fun _ activity unfinished => Or.inl ⟨activity, unfinished, rfl, rfl⟩
  struck := fun _ hit => hit

theorem trans (first : Steady old new) (second : Steady new last) : Steady old last where
  length := Nat.le_trans first.length second.length
  ready := first.ready.trans second.ready
  ended := fun id outcome ended => second.ended id outcome (first.ended id outcome ended)
  failed := fun id failure failed => first.failed id failure (second.failed id failure failed)
  after := by
    intro task activity unfinished
    obtain ⟨found, unfinished', phase, waiting⟩ := first.after task activity unfinished
    obtain ⟨found', unfinished'', phase', waiting'⟩ := second.after task found unfinished'
    exact ⟨found', unfinished'', phase'.trans phase, waiting'.trans waiting⟩
  before := by
    intro task activity unfinished
    rcases second.before task activity unfinished with
      ⟨found, unfinished', phase, waiting⟩ | ⟨outside, idle, job, start⟩
    · rcases first.before task found unfinished' with
        ⟨found', unfinished'', phase', waiting'⟩ | ⟨outside, idle, job, start, internal⟩
      · exact Or.inl ⟨found', unfinished'', phase'.trans phase, waiting'.trans waiting⟩
      · exact Or.inr ⟨outside, waiting ▸ idle, job, phase ▸ start, internal⟩
    · exact Or.inr ⟨Nat.le_trans first.length outside, idle, job, start⟩
  struck := fun task hit => second.struck task (first.struck task hit)

theorem of_loop_eq (same : new.loop = old.loop) : Steady old new where
  length := Nat.le_of_eq (by rw [same])
  ready := same ▸ List.prefix_refl _
  ended := fun _ _ ended => same ▸ ended
  failed := fun _ _ failed => same ▸ failed
  after := fun _ activity unfinished => ⟨activity, same ▸ unfinished, rfl, rfl⟩
  before := fun _ activity unfinished => Or.inl ⟨activity, same ▸ unfinished, rfl, rfl⟩
  struck := fun _ hit => same ▸ hit

/-- Only the loop matters. -/
theorem from_same {middle : Engine} (steady : Steady middle new) (same : middle.loop = old.loop) :
    Steady old new :=
  (of_loop_eq same).trans steady

theorem to_same {middle : Engine} (steady : Steady old middle) (same : new.loop = middle.loop) :
    Steady old new :=
  steady.trans (of_loop_eq same)

theorem of_stirred {loop : Loop Phase} (stirred : Stirred struck engine.loop loop)
    (ready : engine.loop.ready <+: loop.ready)
    (length : loop.futures.length = engine.loop.futures.length ∨ Grown engine.loop loop) :
    Steady engine { engine with loop } where
  length := stirred.length
  ready := ready
  ended := fun _ _ ended => stirred.ended ended
  failed := by
    intro id failure failed
    rcases length with length | grown
    · rcases stirred.outcome id (length ▸ Loop.lt_of_outcome? _ failed) with same | ⟨-, -, calm, -⟩
      · exact same.symm.trans failed
      · exact absurd failed (calm failure)
    · exact (grown.outcome id).symm.trans failed
  after := by
    intro task activity unfinished
    obtain ⟨found, unfinished', phase, waiting, -⟩ := stirred.after unfinished
    exact ⟨found, unfinished', phase, waiting⟩
  before := by
    intro task activity unfinished
    have inside : task < engine.loop.futures.length := by
      rcases length with length | grown
      · exact length ▸ unfinished.lt
      · exact Loop.lt_of_activity? _ ((grown.activity task).symm.trans unfinished.1)
    obtain ⟨found, unfinished', phase, waiting, -⟩ := stirred.before inside unfinished
    exact Or.inl ⟨found, unfinished', phase.symm, waiting.symm⟩
  struck := fun _ hit => stirred.struck_after hit

end Steady

theorem steady_grown {loop : Loop Phase} (grown : Grown engine.loop loop) :
    Steady engine { engine with loop } := by
  obtain ⟨more, ready, -⟩ := grown.ready
  exact .of_stirred grown.stirred (ready ▸ List.prefix_append ..) (Or.inr grown)

theorem steady_addFuture (engine : Engine) : Steady engine engine.addFuture.2 :=
  steady_grown (Loop.grown_addFuture engine.loop)

theorem steady_settle {id : Nat} (bare : engine.loop.Bare id) (v : Value) :
    Steady engine (engine.withLoop (·.settle id (.value v))) := by
  have calm : ∀ failure, Outcome.value v ≠ .failed failure := nofun
  have stirred : Stirred (fun _ => False) engine.loop (engine.loop.settle id (.value v)) :=
    Loop.stirred_settle bare calm nofun
  exact .of_stirred stirred (Loop.ready_prefix_settle ..) (Or.inl (Loop.length_settle ..))

theorem steady_settleAll {waiters : List Nat} (bare : ∀ waiter ∈ waiters, engine.loop.Bare waiter)
    (v : Value) : Steady engine (engine.withLoop fun loop =>
      waiters.foldl (fun l waiter => l.settle waiter (.value v)) loop) := by
  induction waiters generalizing engine with
  | nil => exact .refl engine
  | cons waiter rest ih =>
    refine (steady_settle (bare waiter (List.mem_cons_self ..)) v).trans (ih fun other member => ?_)
    exact (Loop.bare_settle waiter other _).mpr (bare other (List.mem_cons_of_mem _ member))

theorem steady_cancel (engine : Engine) (root : Nat) :
    Steady engine (engine.withLoop (·.cancel root)) := by
  have step : Cancelled engine.loop root (engine.loop.cancel root) := Loop.cancelled_cancel root
  exact .of_stirred step.stirred_any step.ready (Or.inl step.length)

theorem steady_spawn (engine : Engine) {job : Job} (helps : ∀ orchestrator document position,
    job ≠ .complete orchestrator document position) : Steady engine (engine.spawn job).2 where
  length := by
    show engine.loop.futures.length ≤ (engine.loop.spawn (.start job)).2.futures.length
    simp
  ready := List.prefix_append ..
  ended := fun id outcome ended => (Loop.outcome?_spawn engine.loop (.start job) id).trans ended
  failed := fun id _ failed => (Loop.outcome?_spawn engine.loop (.start job) id).symm.trans failed
  after := by
    intro task activity unfinished
    have kept := (Loop.unfinished_spawn (.start job) task activity).mpr (Or.inr unfinished)
    exact ⟨activity, kept, rfl, rfl⟩
  before := by
    intro task activity unfinished
    have unfinished : (engine.loop.spawn (.start job)).2.Unfinished task activity := unfinished
    rcases (Loop.unfinished_spawn (.start job) task activity).mp unfinished with ⟨same, rfl⟩ | old
    · exact Or.inr ⟨Nat.le_of_eq same.symm, rfl, job, rfl, helps⟩
    · exact Or.inl ⟨activity, old, rfl, rfl⟩
  struck := fun _ hit => (Loop.stirred_spawn engine.loop (.start job)).struck_after hit

/-! Stopping. -/

theorem steady_cancelCall (engine : Engine) (call : Nat) : Steady engine (engine.cancelCall call) := by
  unfold cancelCall
  split
  · exact .refl engine
  · split
    · exact (steady_cancel engine call).to_same rfl
    · exact .refl engine

theorem steady_finishStream (engine : Engine) (id : Nat) : Steady engine (engine.finishStream id) :=
  .of_loop_eq (finishStream_frame engine id).1

theorem steady_abortStream (engine : Engine) (id : Nat) : Steady engine (engine.abortStream id) := by
  unfold abortStream
  split
  · exact .refl engine
  · next stream found =>
    split
    · exact .refl engine
    · refine Steady.trans ?_ (steady_finishStream _ id)
      cases stream.pending with
      | none => exact .of_loop_eq rfl
      | some read => exact (steady_cancel engine read).to_same rfl

theorem steady_stopWork (engine : Engine) (work : Request) : Steady engine (engine.stopWork work) := by
  unfold stopWork
  split
  · exact (steady_abortStream (engine.emit _) _).from_same rfl
  · exact (steady_cancelCall (engine.emit _) _).from_same rfl
  · exact .refl engine

theorem steady_cancelRequest (coherent : engine.Coherent touched running) (id : Nat) :
    Steady engine (engine.cancelRequest id) := by
  cases known : engine.requests[id]? with
  | none =>
    unfold cancelRequest
    rw [known]
    exact .refl engine
  | some request =>
    cases cancelled : request.cancelled with
    | true =>
      unfold cancelRequest
      simp only [known, cancelled, if_true]
      exact .refl engine
    | false =>
      rw [cancelRequest_eq known cancelled]
      have bare := (coherent.requests id request known).waiters
      exact ((steady_settleAll bare _).trans (steady_stopWork _ request)).to_same rfl

theorem steady_cancelCurrent (coherent : engine.Coherent touched running) (orchestrator : Nat) :
    Steady engine (engine.cancelCurrent orchestrator) := by
  unfold cancelCurrent
  dsimp only
  split
  · exact .of_loop_eq rfl
  · next request _ =>
    have counted := coherent.alike (alike_modifyOrchestrator engine orchestrator fun o =>
      { o with generation := o.generation + 1 })
    have cancelled : Steady engine _ := (steady_cancelRequest counted request).from_same rfl
    exact cancelled.to_same rfl

end InlineCompletion.Engine
