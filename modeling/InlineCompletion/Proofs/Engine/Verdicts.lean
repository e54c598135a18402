import InlineCompletion.Proofs.Engine.Steady

/-!
What a task may do when it has run: it waits for something new that its phase names, or it ends as
those who wait for it expect. Then the next turn begins in order. Tasks that work for others do so.
-/

namespace InlineCompletion.Engine

variable {engine : Engine} {touched : Nat → Prop} {running : Option (Nat × Outcome)}
  {task : Nat} {outcome : Outcome}

/-- No other task has a use for what the running one works with. -/
def Sole (engine : Engine) (task : Nat) (belonging : Belonging) : Prop :=
  ∀ other found, engine.loop.Unfinished other found → other ≠ task →
    belonging ∉ found.phase.belongings

structure Parks (engine : Engine) (touched : Nat → Prop) (task : Nat) (outcome : Outcome)
    (target : Nat) (phase : Phase) : Prop where
  pending : engine.loop.isPending target = true
  free : ∀ other found, engine.loop.Unfinished other found → found.waitingFor ≠ some target
  keeps : ∀ errand, engine.Does errand task →
    engine.Doing errand { phase, waitingFor := some target }
  heeds : ∀ request, engine.Does (.watch request) task →
    ¬engine.loop.Struck (some (task, outcome)) task
  apart : ∀ belonging ∈ phase.belongings, engine.Sole task belonging
  fits : engine.Fits touched (some (task, outcome)) task { phase, waitingFor := some target }

structure Ends (engine : Engine) (touched : Nat → Prop) (task : Nat) (outcome result : Outcome) :
    Prop where
  calm : ∀ request failure, engine.Does (.watch request) task → result ≠ .failed failure
  heeds : ∀ errand, engine.Does errand task → result = .cancelled → outcome = .cancelled
  wanted : ∀ activity run, engine.loop.Unfinished task activity → activity.phase.run? = some run →
    result = .cancelled → touched task

def InOrder (touched : Nat → Prop) (task : Nat) (outcome : Outcome) (step : Step) : Prop :=
  step.1.Coherent touched (some (task, outcome)) ∧
    match step.2 with
    | .wait target phase => step.1.Parks touched task outcome target phase
    | .done result => step.1.Ends touched task outcome result

theorem coherent_conclude {step : Step} (inOrder : InOrder touched task outcome step) :
    (conclude task step).Coherent touched none := by
  obtain ⟨engine, verdict⟩ := step
  obtain ⟨coherent, accepted⟩ := inOrder
  cases verdict with
  | wait target phase =>
    refine Coherent.park coherent accepted.pending accepted.free accepted.keeps accepted.heeds ?_
      accepted.fits
    exact fun other found belonging unfinished different member =>
      accepted.apart belonging member other found unfinished different
  | done result =>
    have finished := Coherent.finish coherent accepted.calm accepted.heeds
    have interrupted (failure : Option Failure) :
        Alike (engine.withLoop (·.settle task result))
          { engine.withLoop (·.settle task result) with interrupted := failure } :=
      ⟨rfl, rfl, fun known => known, rfl, rfl, rfl, rfl, rfl, fun _ member => member⟩
    unfold conclude
    dsimp only
    split
    · split
      · exact finished.alike (interrupted _)
      · exact finished
    · exact finished

theorem Sole.steady {old new : Engine} {belonging : Belonging} (sole : old.Sole task belonging)
    (steady : Steady old new) : new.Sole task belonging := by
  intro other found unfinished different member
  rcases steady.before other found unfinished with
    ⟨before, known, phase, -⟩ | ⟨-, -, job, start, -⟩
  · exact sole other before known different (phase ▸ member)
  · rw [start] at member
    cases member

/-- What is new belongs to nobody yet. -/
theorem belongs_lt (coherent : engine.Coherent touched running) {other : Nat}
    {found : Activity Phase} (unfinished : engine.loop.Unfinished other found)
    (others : running.map Prod.fst ≠ some other) {belonging : Belonging}
    (member : belonging ∈ found.phase.belongings) :
    match belonging with
    | .request id => id < engine.requests.length
    | .watch id | .call id => id < engine.loop.futures.length
    | .stream id => id < engine.streams.length := by
  have inside {α : Type} {list : List α} {id : Nat} {x : α} (known : list[id]? = some x) :
      id < list.length := (List.getElem?_eq_some_iff.mp known).1
  cases coherent.fits other found unfinished others with
  | start _ phase | watching phase | answering _ phase | pulling _ phase =>
    rw [phase] at member
    cases member
  | debouncing watch run phase vigil | unwinding watch _ run phase vigil =>
    obtain ⟨-, -, -, -, ⟨_, known, -⟩, ⟨⟨_, there⟩, -⟩⟩ := vigil
    rw [phase] at member
    simp only [Phase.belongings, List.mem_cons, List.not_mem_nil, or_false] at member
    rcases member with rfl | rfl
    · exact inside known
    · exact Loop.lt_of_activity? _ there
  | calling call run phase _ works attached =>
    obtain ⟨⟨_, there⟩, -⟩ := works
    obtain ⟨_, known, -⟩ := attached
    rw [phase] at member
    simp only [Phase.belongings, List.mem_cons, List.not_mem_nil, or_false] at member
    rcases member with rfl | rfl
    · exact inside known
    · exact Loop.lt_of_activity? _ there
  | reading stream read run pieces _ phase _ _ attached known
  | closing stream run _ _ phase _ attached known =>
    obtain ⟨_, known', -⟩ := attached
    rw [phase] at member
    simp only [Phase.belongings, List.mem_cons, List.not_mem_nil, or_false] at member
    rcases member with rfl | rfl
    · exact inside known'
    · exact inside known

/-- Nobody else has a use for what has just been numbered. -/
theorem Coherent.sole_new (coherent : engine.Coherent touched (some (task, outcome))) :
    engine.Sole task (.request engine.requests.length) ∧
      engine.Sole task (.stream engine.streams.length) ∧
      engine.Sole task (.watch engine.loop.futures.length) ∧
      engine.Sole task (.call engine.loop.futures.length) := by
  have lt {other : Nat} {found : Activity Phase} (unfinished : engine.loop.Unfinished other found)
      (different : other ≠ task) {belonging : Belonging}
      (member : belonging ∈ found.phase.belongings) := by
    exact belongs_lt coherent unfinished (by simpa using Ne.symm different) member
  refine ⟨?_, ?_, ?_, ?_⟩
  all_goals
    intro other found unfinished different member
    exact Nat.lt_irrefl _ (lt unfinished different member)

/-- Nobody waits for a future that is new. -/
theorem free_of_fresh {old new : Engine} (coherent : old.Coherent touched running)
    (steady : Steady old new) {target : Nat} (fresh : old.loop.futures.length ≤ target)
    (other : Nat) (found : Activity Phase) (unfinished : new.loop.Unfinished other found) :
    found.waitingFor ≠ some target := by
  intro waits
  rcases steady.before other found unfinished with ⟨before, known, -, waiting⟩ | ⟨-, idle, -⟩
  · exact absurd (coherent.sound.target_lt known (waiting.trans waits)) (Nat.not_lt_of_le fresh)
  · cases idle.symm.trans waits

/-! Waiting for the gate. -/

/-- A task that waits for the gate has nothing else to fear from. -/
structure Gated (old new : Engine) (target : Nat) : Prop where
  steady : Steady old new
  pending : new.loop.isPending target = true
  fresh : old.loop.futures.length ≤ target
  bare : new.loop.Bare target
  member : target ∈ new.client.gateWaiters
  requests : new.requests = old.requests
  streams : new.streams = old.streams

theorem Coherent.awaitGate (coherent : engine.Coherent touched running)
    (closed : engine.client.gateOpen = false) (phase : Phase) :
    ∃ new target, engine.awaitGate phase = (new, .wait target phase) ∧
      new.Coherent touched running ∧ Gated engine new target := by
  have bare := Loop.bare_addFuture engine.loop
  refine ⟨_, _, rfl, coherent.addFuture.joinGate closed bare, ?_⟩
  exact
    { steady := (steady_addFuture engine).to_same rfl
      pending := Loop.isPending_addFuture engine.loop
      fresh := Nat.le_refl _
      bare := bare
      member := List.mem_append_right _ (List.mem_singleton_self _)
      requests := rfl
      streams := rfl }

theorem Gated.held {old new : Engine} {target : Nat} (gated : Gated old new target) (phase : Phase) :
    new.Held { phase, waitingFor := some target } :=
  ⟨target, rfl, gated.bare, fun _ => gated.member⟩

/-- Nobody has cancelled a wait that has just begun. -/
theorem not_roused_of_pending {phase : Phase} {target : Nat}
    (pending : engine.loop.isPending target = true) :
    ¬engine.loop.Roused { phase, waitingFor := some target } := by
  intro either
  rcases either with requested | ⟨waiter, waits, ended⟩
  · cases requested
  · cases waits
    cases ((Loop.isPending_iff _ _).mp pending).2.symm.trans ended

end InlineCompletion.Engine
