import InlineCompletion.Proofs.Engine.Deeds

/-!
A request takes the place of the one before it, which is cancelled on that occasion. A cancellation
from outside does the same and leaves the place empty.
-/

namespace InlineCompletion

/-- Without a request, and one generation on. -/
def Orchestrator.retired (o : Orchestrator) : Orchestrator :=
  { o with generation := o.generation + 1, current := none, stage := .idle }

namespace Engine

variable {engine old new : Engine} {env : Environment} {run : Run} {touched : Nat → Prop}
  {running : Option (Nat × Outcome)} {orchestrator : Nat}

theorem modify_eq_self_of_same {α : Type} {list : List α} {id : Nat} {f : α → α}
    (same : ∀ x, list[id]? = some x → f x = x) : list.modify id f = list := by
  refine List.ext_getElem? fun k => ?_
  rw [getElem?_modify]
  split
  · next here =>
    subst here
    cases found : list[k]? with
    | none => rfl
    | some x => rw [Option.map_some, same x found]
  · rfl

/-- Whatever state the request is in, its cancellation comes to the mark that it leaves. -/
theorem aside_cancelRequest (coherent : engine.Coherent touched running) (id : Nat) :
    Aside Event.Stopping (engine.modifyRequest id fun r => { r with cancelled := true })
      (engine.cancelRequest id) := by
  have unchanged (same : ∀ request, engine.requests[id]? = some request → request.cancelled = true) :
      engine.modifyRequest id (fun r => { r with cancelled := true }) = engine := by
    unfold modifyRequest
    rw [modify_eq_self_of_same fun request found => ?_]
    rw [← same request found]
  cases known : engine.requests[id]? with
  | none =>
    rw [unchanged fun _ found => by cases known.symm.trans found]
    unfold cancelRequest
    rw [known]
    exact .refl engine
  | some request =>
    cases cancelled : request.cancelled with
    | true =>
      rw [unchanged fun _ found => by cases known.symm.trans found; exact cancelled]
      unfold cancelRequest
      simp only [known, cancelled, if_true]
      exact .refl engine
    | false =>
      have woken : Aside Event.Stopping (engine.modifyRequest id fun r => { r with cancelled := true })
          ((engine.modifyRequest id fun r => { r with cancelled := true }).modifyRequest id fun r =>
            { r with waiters := [] }) := aside_modifyRequest _ id fun _ => rfl
      refine woken.trans ?_
      have marked := aside_cancelGoing coherent known cancelled
      unfold modifyRequest at marked ⊢
      rw [List.modify_modify_eq]
      exact marked

structure Retires (orchestrator : Nat) (old new : Engine) : Prop where
  steady : Steady old new
  orchestrators : new.orchestrators = old.orchestrators.modify orchestrator Orchestrator.retired
  marks : ∀ id, new.markOf id = (old.markOf id).map fun mark =>
    (mark.1 || decide (old.orchestrators[orchestrator]?.bind (·.current) = some id), mark.2)
  events : ∃ told, new.events = old.events ++ told ∧ ∀ event ∈ told, event.Stopping
  interrupted : new.interrupted = old.interrupted

theorem retires_cancelCurrent (coherent : engine.Coherent touched running) (orchestrator : Nat) :
    Retires orchestrator engine (engine.cancelCurrent orchestrator) := by
  let counted := engine.modifyOrchestrator orchestrator fun o =>
    { o with generation := o.generation + 1 }
  have coherent' : counted.Coherent touched running :=
    coherent.alike (alike_modifyOrchestrator engine orchestrator _)
  have retired : (engine.orchestrators.modify orchestrator fun o =>
      { o with generation := o.generation + 1 }).modify orchestrator (fun o =>
        { o with current := none, stage := .idle }) =
      engine.orchestrators.modify orchestrator Orchestrator.retired := by
    rw [List.modify_modify_eq]
    rfl
  unfold cancelCurrent
  dsimp only
  cases current : engine.orchestrators[orchestrator]?.bind (·.current) with
  | none =>
    refine ⟨.of_loop_eq rfl, retired, fun id => ?_, ⟨[], by simp [modifyOrchestrator], nofun⟩, rfl⟩
    simp only [current, reduceCtorEq, decide_false, Bool.or_false, Option.map_id_fun']
    rfl
  | some request =>
    have aside := aside_cancelRequest coherent' request
    have steady : Steady engine (counted.cancelRequest request) := aside.steady.from_same rfl
    refine ⟨steady.to_same rfl, ?_, fun id => ?_, aside.events, aside.interrupted⟩
    · show (counted.cancelRequest request).orchestrators.modify _ _ = _
      rw [aside.orchestrators]
      exact retired
    · refine (aside.marks id).trans ?_
      show ((engine.requests.modify request _)[id]?).map Request.mark = _
      rw [getElem?_modify]
      simp only [current, Option.some.injEq]
      split
      · next same => simp [same, markOf, Request.mark, Function.comp_def]
      · next other =>
        simp only [Ne.symm other, decide_false, Bool.or_false, Option.map_id_fun']
        rfl

theorem Retires.length (retires : Retires orchestrator old new) :
    new.requests.length = old.requests.length := by
  have outside (id : Nat) : new.requests.length ≤ id ↔ old.requests.length ≤ id := by
    rw [← markOf_eq_none_iff, retires.marks id, Option.map_eq_none_iff, markOf_eq_none_iff]
  exact Nat.le_antisymm ((outside _).mpr (Nat.le_refl _)) ((outside _).mp (Nat.le_refl _))

/-- What the task of a completion finds when its request has begun. -/
structure Succeeds (orchestrator : Nat) (o : Orchestrator) (old new : Engine) : Prop where
  steady : Steady old new
  orchestrators : new.orchestrators = old.orchestrators.modify orchestrator fun o =>
    { o.retired with current := some old.requests.length }
  marks : ∀ id, new.markOf id =
    if id = old.requests.length then some (false, o.generation + 1)
    else (old.markOf id).map fun mark => (mark.1 || decide (o.current = some id), mark.2)
  events : ∃ told, new.events = old.events ++ told ∧ ∀ event ∈ told, event.Stopping

theorem succeeds_beginRequest (coherent : engine.Coherent touched running) {o : Orchestrator}
    (found : engine.orchestrators[orchestrator]? = some o) :
    (engine.beginRequest orchestrator).1 = engine.requests.length ∧
      Succeeds orchestrator o engine (engine.beginRequest orchestrator).2 := by
  have retires := retires_cancelCurrent coherent orchestrator
  have found' : (engine.cancelCurrent orchestrator).orchestrators[orchestrator]? = some o.retired := by
    rw [retires.orchestrators, getElem?_modify, if_pos rfl, found]
    rfl
  refine ⟨retires.length, retires.steady.to_same rfl, ?_, fun id => ?_, retires.events⟩
  · show (engine.cancelCurrent orchestrator).orchestrators.modify orchestrator _ = _
    rw [retires.orchestrators, List.modify_modify_eq, retires.length]
    rfl
  · show (((engine.cancelCurrent orchestrator).requests ++
      [({ generation := _ } : Request)])[id]?).map Request.mark = _
    rw [found']
    split
    · next new =>
      rw [new, ← retires.length, List.getElem?_concat_length]
      rfl
    · next other =>
      have marks := retires.marks id
      rw [found] at marks
      rw [← retires.length] at other
      rw [List.getElem?_append]
      split
      · exact marks
      · next outside =>
        rw [(markOf_eq_none_iff _ id).mpr (Nat.le_of_not_lt outside)] at marks
        rw [List.getElem?_eq_none (by simp; omega)]
        exact marks

/-- The request that has begun is live. -/
theorem Succeeds.isLive {o : Orchestrator} (succeeds : Succeeds orchestrator o old new)
    (found : old.orchestrators[orchestrator]? = some o) (mine : run.orchestrator = orchestrator)
    (newest : run.request = old.requests.length) : new.isLive run = true := by
  have mark := succeeds.marks run.request
  rw [if_pos newest] at mark
  obtain ⟨request, known, same⟩ := Option.map_eq_some_iff.mp mark
  have going : request.cancelled = false := congrArg Prod.fst same
  unfold Engine.isLive isCurrent isCancelled
  rw [succeeds.orchestrators, getElem?_modify, if_pos mine, mine, found, known]
  simp [going, newest]

/-- Without its orchestrator a request begins in vain. -/
theorem beginRequest_of_none (coherent : engine.Coherent touched running)
    (nowhere : engine.orchestrators[orchestrator]? = none) :
    Steady engine (engine.beginRequest orchestrator).2 ∧
      (engine.beginRequest orchestrator).2.orchestrators = engine.orchestrators ∧
      ∀ id mark, engine.markOf id = some mark →
        (engine.beginRequest orchestrator).2.markOf id = some mark := by
  have retires := retires_cancelCurrent coherent orchestrator
  have outside := List.getElem?_eq_none_iff.mp nowhere
  refine ⟨retires.steady.to_same rfl, ?_, fun id mark before => ?_⟩
  · show (engine.cancelCurrent orchestrator).orchestrators.modify orchestrator _ = _
    rw [retires.orchestrators, List.modify_eq_self outside, List.modify_eq_self outside]
  · have kept : (engine.cancelCurrent orchestrator).markOf id = some mark := by
      rw [retires.marks, nowhere, before]
      simp
    obtain ⟨request, there, rfl⟩ := Option.map_eq_some_iff.mp kept
    show (((engine.cancelCurrent orchestrator).requests ++ [_])[id]?).map Request.mark = _
    rw [List.getElem?_append_left (List.getElem?_eq_some_iff.mp there).1, there]
    rfl

end Engine

end InlineCompletion
