import InlineCompletion.Proofs.Engine.Generations

/-!
What requests leave in the trace. Only a request that is not cancelled looks into a cache, asks the
client or stores what it got; a cancelled one is not heard of again.
-/

namespace InlineCompletion

/-- The request that made the event happen. -/
def Event.requester : Event → Option Nat
  | .asked request _ _ | .consulted _ request _ | .stored _ request _ => some request
  | _ => none

theorem Event.requester_of_stopping {event : Event} (stops : event.Stopping) :
    event.requester = none := by
  cases event with
  | stoppedCall | stoppedStream => rfl
  | recorded | asked | consulted | stored | notified => exact stops.elim

theorem Event.requester_of_recorded {event : Event} (recorded : event.Recorded) :
    event.requester = none := by
  cases event with
  | recorded => rfl
  | asked | consulted | stored | notified | stoppedCall | stoppedStream => exact recorded.elim

namespace Engine

variable {engine old new last : Engine} {env : Environment} {run : Run} {touched : Nat → Prop}
  {running : Option (Nat × Outcome)} {task orchestrator : Nat} {heard more : Nat → Prop}

/-- Of all requests only those named are heard of. -/
def Tells (heard : Nat → Prop) (old new : Engine) : Prop :=
  ∃ told, new.events = old.events ++ told ∧
    ∀ event ∈ told, ∀ request, event.requester = some request → heard request

namespace Tells

theorem of_same (same : new.events = old.events) : Tells heard old new :=
  ⟨[], by simpa using same, nofun⟩

theorem trans (first : Tells heard old new) (second : Tells heard new last) :
    Tells heard old last := by
  obtain ⟨told, events, allowed⟩ := first
  obtain ⟨told', events', allowed'⟩ := second
  refine ⟨told ++ told', by rw [events', events, List.append_assoc], fun event member => ?_⟩
  rcases List.mem_append.mp member with early | late
  · exact allowed event early
  · exact allowed' event late

theorem mono (tells : Tells heard old new) (weaker : ∀ request, heard request → more request) :
    Tells more old new := by
  obtain ⟨told, events, allowed⟩ := tells
  exact ⟨told, events, fun event member request asks => weaker request (allowed event member request asks)⟩

theorem of_aside {tells : Event → Prop} (aside : Aside tells old new)
    (unheard : ∀ event, tells event → event.requester = none) : Tells heard old new := by
  obtain ⟨told, events, allowed⟩ := aside.events
  refine ⟨told, events, fun event member request asks => ?_⟩
  cases (unheard event (allowed event member)).symm.trans asks

theorem of_stopping (stops : ∃ told, new.events = old.events ++ told ∧
    ∀ event ∈ told, event.Stopping) : Tells heard old new := by
  obtain ⟨told, events, allowed⟩ := stops
  refine ⟨told, events, fun event member request asks => ?_⟩
  cases (Event.requester_of_stopping (allowed event member)).symm.trans asks

theorem of_emit (engine : Engine) (event : Event)
    (allowed : ∀ request, event.requester = some request → heard request) :
    Tells heard engine (engine.emit event) :=
  ⟨[event], rfl, by simpa using allowed⟩

end Tells

/-- A deed is heard of as one of its own request, which is live. -/
theorem Deed.tells (deed : Deed env run old new) :
    Tells (fun request => request = run.request ∧ old.isLive run = true) old new := by
  cases deed with
  | aside silent => exact .of_same silent.silent_events
  | enters => exact .of_same rfl
  | notifies notice => exact .of_emit old _ nofun
  | consults o live =>
    unfold lookUp
    split
    · exact .of_same rfl
    · dsimp only
      exact (Tells.of_emit old _ fun request same => ⟨(Option.some.inj same).symm, live⟩).trans
        (.of_same rfl)
  | asks o call live => exact .of_emit old _ fun request same => ⟨(Option.some.inj same).symm, live⟩
  | stores completion live =>
    unfold store
    split
    · exact .of_same rfl
    · exact (Tells.of_emit old _ fun request same => ⟨(Option.some.inj same).symm, live⟩).trans
        (.of_same rfl)

theorem Deeds.tells (deeds : Deeds env run old new) :
    Tells (fun request => request = run.request ∧ old.isLive run = true) old new := by
  induction deeds with
  | refl => exact .of_same rfl
  | tail deeds deed ih =>
    refine ih.trans (deed.tells.mono fun request ⟨mine, live⟩ => ⟨mine, ?_⟩)
    exact ((Deeds.kept deeds).isLive run).symm.trans live

theorem Played.tells {step : Step} (played : Played env run old step) :
    Tells (fun request => request = run.request ∧ old.isLive run = true) old step.1 := by
  cases played with
  | waits new target phase deeds => exact Deeds.tells deeds
  | ends new result deeds =>
    refine (Deeds.tells deeds).trans (.of_same ?_)
    unfold endRun
    split <;> rfl

/-- Only what is not cancelled is heard of. -/
def Uncancelled (engine : Engine) (request : Nat) : Prop :=
  ∀ generation, engine.markOf request ≠ some (true, generation)

theorem uncancelled_of_isLive (live : engine.isLive run = true) : engine.Uncancelled run.request := by
  intro generation mark
  rw [isLive_eq, mark] at live
  simp at live

theorem Resumed.tells {step : Step} {phase : Phase} {outcome : Outcome}
    (resumed : Resumed env old phase outcome step) (coherent : old.Coherent touched running) :
    Tells old.Uncancelled old step.1 := by
  cases resumed with
  | plays run works played =>
    exact played.tells.mono fun request ⟨mine, live⟩ => mine ▸ uncancelled_of_isLive live
  | begins orchestrator o run starts wanted found mine newest succeeds opened =>
    have begun : Tells old.Uncancelled old (old.beginRequest orchestrator).2 :=
      .of_stopping succeeds.events
    have live := succeeds.isLive found mine newest
    refine begun.trans ((opened.played live).tells.mono fun request ⟨mine, _⟩ generation mark => ?_)
    have new := (markOf_eq_none_iff old request).mpr (Nat.le_of_eq (by rw [mine, newest]))
    cases mark.symm.trans new
  | absent orchestrator starts wanted nowhere same =>
    rw [same]
    exact .of_stopping (retires_cancelCurrent coherent orchestrator).events
  | assists idle unstarted assists =>
    exact .of_aside assists.aside fun _ => Event.requester_of_recorded

theorem tells_apply (env : Environment) (coherent : engine.Coherent touched none) (move : Move) :
    Tells engine.Uncancelled engine (engine.apply env move) := by
  have moved := moved_apply env coherent move
  generalize engine.apply env move = next at *
  cases moved with
  | turned next turned =>
    cases turned with
    | idle => exact .of_same rfl
    | released => exact .of_same rfl
    | woken task rest activity awake going first known same =>
      subst same
      have resumed := resumed_resume env coherent first known
      exact (resumed.tells (coherent.wake first known)).trans (.of_same (conclude_frame task _).2.2)
  | requested => exact .of_same rfl
  | cancelled orchestrator next retires => exact .of_stopping retires.events
  | selected => exact .of_same rfl
  | cleared orchestrator notify =>
    unfold clearCacheFor
    dsimp only
    split
    · exact .of_emit (engine.clearCache orchestrator) _ nofun
    · exact .of_same rfl
  | aside move next silent => exact .of_same silent.silent_events

/-- A cancelled request is not heard of again. -/
theorem tells_play (env : Environment) (coherent : engine.Coherent touched none) (moves : List Move)
    (wanted : ∀ task, .cancelTask task ∈ moves → touched task) {request : Nat} {generation : Int}
    (gone : engine.markOf request = some (true, generation)) :
    Tells (· ≠ request) engine (engine.play env moves) := by
  -- From move to move the request stays cancelled, and silent.
  have step (now : Engine) (move : Move) (coherent : now.Coherent touched none)
      (both : Tells (· ≠ request) engine now ∧ now.markOf request = some (true, generation)) :
      Tells (· ≠ request) engine (now.apply env move) ∧
        (now.apply env move).markOf request = some (true, generation) := by
    obtain ⟨tells, gone⟩ := both
    constructor
    · refine tells.trans ((tells_apply env coherent move).mono ?_)
      intro other uncancelled same
      subst same
      exact uncancelled generation gone
    · obtain ⟨cancelled, mark, keeps⟩ := (advances_apply env coherent move).marks request _ _ gone
      rw [mark, keeps rfl]
  have both := coherent.play_invariant env moves wanted step ⟨.of_same rfl, gone⟩
  exact both.1

end Engine

end InlineCompletion
