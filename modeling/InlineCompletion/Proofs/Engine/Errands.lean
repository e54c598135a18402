import InlineCompletion.Proofs.Engine.Verdicts

/-!
The tasks that work for others: watches, answers and reads. Each ends by a cancellation only when it
goes on with one, and waits only at the gate or for the cancellation of its request.
-/

namespace InlineCompletion

/-! What a source yields by itself is no cancellation, and only a closed gate holds it back. -/

theorem Client.pull_ended {client : Client} {actions rest : List SourceAction} {outcome : Outcome}
    (ended : client.pull actions = (.ended outcome, rest)) : outcome ≠ .cancelled := by
  induction actions with
  | nil =>
    cases ended
    nofun
  | cons action later ih =>
    cases action with
    | passGate =>
      unfold pull at ended
      split at ended
      · exact ih ended
      · cases ended
    | checkFailure =>
      unfold pull at ended
      split at ended
      · cases ended
        nofun
      · exact ih ended
    | piece t | fail failure =>
      cases ended
      nofun

theorem Client.pull_blocked {client : Client} {actions rest : List SourceAction}
    (blocked : client.pull actions = (.blocked, rest)) : client.gateOpen = false := by
  induction actions with
  | nil => cases blocked
  | cons action later ih =>
    cases action with
    | passGate =>
      unfold pull at blocked
      split at blocked
      · exact ih blocked
      · next shut => simpa using shut
    | checkFailure =>
      unfold pull at blocked
      split at blocked
      · cases blocked
      · exact ih blocked
    | piece t | fail failure => cases blocked

namespace Engine

variable {engine : Engine} {touched : Nat → Prop} {running : Option (Nat × Outcome)}
  {task : Nat} {outcome result : Outcome} {phase : Phase}

theorem answerOutcome_ne_cancelled (client : Client) (reply : Reply) :
    answerOutcome client reply ≠ .cancelled := by
  unfold answerOutcome
  split
  · nofun
  · split <;> nofun

/-- The task is where it was when its turn began. -/
def Acts (engine : Engine) (task : Nat) (phase : Phase) : Prop :=
  ∃ activity, engine.loop.Unfinished task activity ∧ activity.phase = phase

theorem Acts.steady {old new : Engine} (acts : old.Acts task phase) (steady : Steady old new) :
    new.Acts task phase := by
  obtain ⟨activity, unfinished, same⟩ := acts
  obtain ⟨found, unfinished', same', -⟩ := steady.after task activity unfinished
  exact ⟨found, unfinished', same'.trans same⟩

theorem Acts.doing (acts : engine.Acts task phase) {errand : Errand}
    (does : engine.Does errand task) :
    ∃ activity : Activity Phase, activity.phase = phase ∧ engine.Doing errand activity := by
  obtain ⟨activity, unfinished, same⟩ := acts
  exact ⟨activity, same, does.2 activity unfinished⟩

/-- A task that works for others ends. -/
theorem Acts.ends (acts : engine.Acts task phase) (helps : phase.run? = none)
    (calm : ∀ request failure, engine.Does (.watch request) task → result ≠ .failed failure)
    (heeds : result = .cancelled → outcome = .cancelled) :
    engine.Ends touched task outcome result := by
  refine ⟨calm, fun _ _ => heeds, fun activity run unfinished works => ?_⟩
  obtain ⟨found, unfinished', same⟩ := acts
  cases unfinished.unique unfinished'
  rw [same, helps] at works
  cases works

/-- No watch answers calls or reads. -/
theorem Acts.not_watch (acts : engine.Acts task phase) (starts : ∀ request, phase ≠ .start (.watch request))
    (watches : phase ≠ .watching) (request : Nat) : ¬engine.Does (.watch request) task := by
  intro does
  obtain ⟨activity, same, doing⟩ := acts.doing does
  rcases doing with start | ⟨watching, -⟩
  · exact starts request (same.symm.trans start)
  · exact watches (same.symm.trans watching)

/-! Watches. -/

theorem inOrder_startWatch {id : Nat}
    (coherent : engine.Coherent touched (some (task, outcome)))
    (known : engine.loop.Unfinished task { phase := .start (.watch id) })
    (inside : id < engine.requests.length) (wakes : outcome ≠ .cancelled) :
    InOrder touched task outcome (engine.startWatch id) := by
  have acts : engine.Acts task (.start (.watch id)) := ⟨_, known, rfl⟩
  unfold startWatch
  split
  · exact ⟨coherent, acts.ends rfl (fun _ _ _ => nofun) nofun⟩
  · next live =>
    have live : engine.isCancelled id = false := by simpa using live
    have bare := Loop.bare_addFuture engine.loop
    have pending := Loop.isPending_addFuture engine.loop
    have joined := coherent.addFuture.joinWaiters live bare
    have steady : Steady engine _ := steady_addFuture engine
    have free := free_of_fresh coherent steady (Nat.le_refl _)
    have known' : engine.loop.addFuture.2.Unfinished task { phase := .start (.watch id) } :=
      ((Loop.grown_addFuture engine.loop).unfinished task _).mpr known
    refine ⟨joined, pending, free, fun errand does => ?_, fun request _ struck => ?_, nofun,
      .watching rfl ⟨_, rfl, bare⟩⟩
    · have doing := does.2 _ known'
      cases errand with
      | watch request =>
        rcases doing with start | ⟨watching, -⟩
        · cases start
          refine Or.inr ⟨rfl, fun waiter waits _ => ?_⟩
          cases waits
          obtain ⟨found, there⟩ : ∃ found, engine.requests[id]? = some found :=
            ⟨_, List.getElem?_eq_getElem inside⟩
          refine ⟨{ found with waiters := found.waiters ++ [engine.addFuture.1] }, ?_, ?_⟩
          · show (engine.requests.modify id _)[id]? = some _
            rw [getElem?_modify, if_pos rfl, there]
            rfl
          · exact List.mem_append_right _ (List.mem_singleton_self _)
        · cases watching
      | answer => rcases doing with ⟨_, phase⟩ | ⟨_, phase⟩ <;> cases phase
      | pull stream => rcases doing with phase | phase <;> cases phase
    · rcases struck with runs | ended | ⟨activity, unfinished, roused⟩
      · cases runs
        exact wakes rfl
      · cases known'.2.symm.trans ended
      · cases known'.unique unfinished
        rcases roused with requested | ⟨target, waits, -⟩
        · cases requested
        · cases waits

/-- A watch that has begun only ends. -/
theorem inOrder_watched (env : Environment)
    (coherent : engine.Coherent touched (some (task, outcome))) (acts : engine.Acts task .watching)
    (calm : ∀ failure, outcome ≠ .failed failure) :
    InOrder touched task outcome (engine.resume env .watching outcome) := by
  cases outcome with
  | value v => exact ⟨coherent, acts.ends rfl (fun _ _ _ => nofun) nofun⟩
  | failed failure => exact absurd rfl (calm failure)
  | cancelled => exact ⟨coherent, acts.ends rfl (fun _ _ _ => nofun) fun _ => rfl⟩

/-! Waiting at the gate. -/

/-- An answer or a read goes on waiting at the gate. -/
theorem inOrder_awaitGate {next : Phase} (coherent : engine.Coherent touched (some (task, outcome)))
    (acts : engine.Acts task phase) (closed : engine.client.gateOpen = false)
    (answers : (∃ reply, next = .answering reply ∧
        ((∃ call, phase = .start (.answer call)) ∨ ∃ old, phase = .answering old)) ∨
      ∃ stream, next = .pulling stream ∧ (phase = .start (.pull stream) ∨ phase = .pulling stream)) :
    InOrder touched task outcome (engine.awaitGate next) := by
  obtain ⟨new, target, same, coherent', gated⟩ := coherent.awaitGate closed next
  have acts' := acts.steady gated.steady
  have unwatched : ∀ request, ¬new.Does (.watch request) task := by
    refine acts'.not_watch ?_ ?_
    all_goals
      rcases answers with ⟨_, -, ⟨_, rfl⟩ | ⟨_, rfl⟩⟩ | ⟨_, -, rfl | rfl⟩
      all_goals nofun
  rw [same]
  refine ⟨coherent', gated.pending, free_of_fresh coherent gated.steady gated.fresh,
    fun errand does => ?_, fun request does => absurd does (unwatched request), ?_, ?_⟩
  · obtain ⟨activity, here, doing⟩ := acts'.doing does
    cases errand with
    | watch request => exact absurd does (unwatched request)
    | answer =>
      rcases answers with ⟨reply, rfl, -⟩ | ⟨stream, -, pulls⟩
      · exact Or.inr ⟨reply, rfl⟩
      · rcases doing with ⟨_, start⟩ | ⟨_, start⟩ <;> rcases pulls with rfl | rfl
        all_goals cases here.symm.trans start
    | pull id =>
      rcases answers with ⟨reply, -, answers⟩ | ⟨stream, rfl, pulls⟩
      · rcases doing with start | start <;> rcases answers with ⟨_, rfl⟩ | ⟨_, rfl⟩
        all_goals cases here.symm.trans start
      · refine Or.inr ?_
        rcases doing with start | start <;> rcases pulls with rfl | rfl
        all_goals
          cases here.symm.trans start
          try rfl
  · rcases answers with ⟨reply, rfl, -⟩ | ⟨stream, rfl, -⟩
    all_goals nofun
  · rcases answers with ⟨reply, rfl, -⟩ | ⟨stream, rfl, -⟩
    · exact .answering reply rfl (gated.held _)
    · exact .pulling stream rfl (gated.held _)

/-! Answers. -/

theorem inOrder_startAnswer (coherent : engine.Coherent touched (some (task, outcome)))
    {call : Call} (acts : engine.Acts task (.start (.answer call))) :
    InOrder touched task outcome (engine.startAnswer call) := by
  have taken := coherent.alike (alike_takeReply engine call)
  have acts : (engine.takeReply call).2.Acts task (.start (.answer call)) := acts
  unfold startAnswer
  dsimp only
  split
  · refine ⟨taken, acts.ends rfl (fun request _ does => ?_) fun cancelled => ?_⟩
    · exact absurd does (acts.not_watch nofun nofun request)
    · exact absurd cancelled (answerOutcome_ne_cancelled _ _)
  · next shut =>
    exact inOrder_awaitGate taken acts (by simpa using shut)
      (Or.inl ⟨_, rfl, Or.inl ⟨call, rfl⟩⟩)

theorem inOrder_resumeAnswer (coherent : engine.Coherent touched (some (task, outcome)))
    {reply : Reply} (acts : engine.Acts task (.answering reply)) :
    InOrder touched task outcome (engine.resumeAnswer reply outcome) := by
  have ends {result : Outcome} (heeds : result = .cancelled → outcome = .cancelled) :
      engine.Ends touched task outcome result :=
    acts.ends rfl (fun request _ does => absurd does (acts.not_watch nofun nofun request)) heeds
  have answered : answerOutcome engine.client reply = .cancelled → outcome = .cancelled :=
    fun cancelled => absurd cancelled (answerOutcome_ne_cancelled _ _)
  unfold resumeAnswer
  split
  · exact ⟨coherent, ends answered⟩
  · split
    · exact ⟨coherent, ends id⟩
    · split
      · exact ⟨coherent, ends answered⟩
      · next shut =>
        exact inOrder_awaitGate coherent acts (by simpa using shut)
          (Or.inl ⟨_, rfl, Or.inr ⟨reply, rfl⟩⟩)

/-! Reads. -/

theorem inOrder_pullSource (coherent : engine.Coherent touched (some (task, outcome)))
    {id : Nat} (acts : engine.Acts task phase)
    (pulls : phase = .start (.pull id) ∨ phase = .pulling id) :
    InOrder touched task outcome (engine.pullSource id) := by
  have ends {engine : Engine} {result : Outcome} (acts : engine.Acts task phase)
      (heeds : result ≠ .cancelled) : engine.Ends touched task outcome result := by
    rcases pulls with rfl | rfl
    all_goals
      exact acts.ends rfl (fun request _ does => absurd does (acts.not_watch nofun nofun request))
        fun cancelled => absurd cancelled heeds
  unfold pullSource
  split
  · exact ⟨coherent, ends acts nofun⟩
  · split
    · next result actions ended =>
      have revised := coherent.alike (alike_modifySource engine id fun source =>
        { source with actions, busy := false })
      exact ⟨revised, ends acts (Client.pull_ended ended)⟩
    · next actions blocked =>
      have steady : Steady engine (engine.modifySource id fun source =>
        { source with actions, busy := true }) := .of_loop_eq rfl
      exact inOrder_awaitGate (coherent.alike (alike_modifySource ..)) (acts.steady steady)
        (Client.pull_blocked blocked) (Or.inr ⟨id, rfl, pulls⟩)

theorem inOrder_startPull (coherent : engine.Coherent touched (some (task, outcome)))
    {id : Nat} (acts : engine.Acts task (.start (.pull id))) :
    InOrder touched task outcome (engine.startPull id) := by
  unfold startPull
  split
  · exact ⟨coherent, acts.ends rfl
      (fun request _ does => absurd does (acts.not_watch nofun nofun request)) nofun⟩
  · have opened := alike_openSource engine id
    exact inOrder_pullSource (coherent.alike opened) (acts.steady (.of_loop_eq opened.loop))
      (Or.inl rfl)

theorem inOrder_resumePull (coherent : engine.Coherent touched (some (task, outcome)))
    {id : Nat} (acts : engine.Acts task (.pulling id)) :
    InOrder touched task outcome (engine.resumePull id outcome) := by
  unfold resumePull
  split
  · exact inOrder_pullSource coherent acts (Or.inr rfl)
  · split
    · exact inOrder_pullSource coherent acts (Or.inr rfl)
    · have steady : Steady engine (engine.modifySource id fun source =>
        { source with actions := [], busy := false }) := .of_loop_eq rfl
      have acts' := acts.steady steady
      have revised := coherent.alike (alike_modifySource engine id fun source =>
        { source with actions := [], busy := false })
      exact ⟨revised, acts'.ends rfl (fun request _ does =>
        absurd does (acts'.not_watch nofun nofun request)) fun cancelled => cancelled⟩

end Engine

end InlineCompletion
