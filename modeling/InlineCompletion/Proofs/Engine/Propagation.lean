import InlineCompletion.Proofs.Engine.Drawing
import InlineCompletion.Proofs.Engine.Progress

/-!
Where the cancellation of a task goes. It reaches the call or the stream that the task waits for, stays
with them whatever others do, and comes back to the task when that has ended. What the task makes of
it depends on whether its call was aborted meanwhile.
-/

namespace InlineCompletion

namespace Engine

open Loop (Stirred)

variable {engine old new : Engine} {env : Environment} {run : Run} {touched : Nat → Prop}
  {task id : Nat} {activity : Activity Phase} {phase : Phase} {move : Move}

/-! Whoever is struck stays so. -/

theorem struck_conclude {step : Step} (known : step.1.loop.Unfinished task activity)
    (unlike : id ≠ task) (hit : step.1.loop.Struck none id) :
    (conclude task step).loop.Struck none id :=
  hit.mono nofun (fun _ => ended_conclude task step) fun found =>
    (unfinished_conclude known unlike found).mpr

theorem struck_wakeFirst (rest : List Handle) (known : engine.loop.Unfinished task activity)
    (unlike : id ≠ task) (hit : engine.loop.Struck none id) :
    (engine.loop.wakeFirst rest task activity.phase).Struck none id :=
  hit.mono nofun (fun _ => (Loop.outcome?_wakeFirst ..).trans) fun found unfinished =>
    (Loop.unfinished_wakeFirst rest known activity.phase id found).mpr (Or.inr ⟨unlike, unfinished⟩)

theorem Turned.struck (turned : Turned env engine new) (coherent : engine.Coherent touched none)
    (hit : engine.loop.Struck none id) (unwoken : engine.woken? ≠ some id) :
    new.loop.Struck none id := by
  cases turned with
  | idle => exact hit
  | released waiter rest going first =>
    have bare : ({ engine.loop with ready := rest } : Loop Phase).Bare waiter :=
      coherent.sound.readyReleases waiter (first ▸ List.mem_cons_self ..)
    have calm : ∀ failure, Outcome.value .nothing ≠ .failed failure := nofun
    have hit : ({ engine.loop with ready := rest } : Loop Phase).Struck none id := hit
    have stirred : Stirred (fun _ => False) { engine.loop with ready := rest }
        (({ engine.loop with ready := rest } : Loop Phase).settle waiter (.value .nothing)) :=
      Loop.stirred_settle bare calm nofun
    exact stirred.struck_after hit
  | woken task rest activity awake going first known same =>
    subst same
    have unlike : id ≠ task := by
      intro same
      subst same
      exact unwoken (by simp [woken?, going, first])
    have steady := (resumed_resume env coherent first known).steady (coherent.wake first known)
    have runs := (Loop.unfinished_wakeFirst rest known activity.phase task _).mpr (Or.inl ⟨rfl, rfl⟩)
    obtain ⟨runner, runs', -⟩ := steady.after task _ runs
    exact struck_conclude runs' unlike (steady.struck id (struck_wakeFirst rest known unlike hit))

theorem Moved.struck (moved : Moved env engine move new) (coherent : engine.Coherent touched none)
    (hit : engine.loop.Struck none id) (unwoken : move = .turn → engine.woken? ≠ some id) :
    new.loop.Struck none id := by
  cases moved with
  | turned next turned => exact turned.struck coherent hit (unwoken rfl)
  | requested orchestrator document position => exact (Loop.stirred_spawn engine.loop _).struck_after hit
  | cancelled orchestrator next retires => exact retires.steady.struck id hit
  | selected => exact hit
  | cleared orchestrator notify =>
    unfold clearCacheFor
    dsimp only
    split <;> exact hit
  | aside move next silent => exact silent.steady.struck id hit

/-! A turn of one's own. -/

theorem outcome?_conclude (known : engine.loop.Unfinished task activity) (result : Outcome) :
    (conclude task (engine, .done result)).loop.outcome? task = some result := by
  have pending := (Loop.isPending_iff _ task).mpr ⟨known.lt, known.2⟩
  rw [loop_conclude_done, Loop.outcome?_settle, if_pos ⟨rfl, pending⟩]

/-- A task that works for the client gives up when it is cancelled, if the client minds. -/
theorem errand_cancelled (env : Environment) (heeds : engine.client.heedless = false)
    {errand : Errand} (serves : ∀ request, errand ≠ .watch request)
    (doing : old.Doing errand activity) :
    ∃ new, engine.resume env activity.phase .cancelled = (new, .done .cancelled) := by
  cases errand with
  | watch request => exact absurd rfl (serves request)
  | answer =>
    rcases doing with ⟨call, phase⟩ | ⟨reply, phase⟩
    · rw [phase]
      exact ⟨engine, rfl⟩
    · rw [phase]
      exact ⟨engine, by simp [resume, resumeAnswer, heeds]⟩
  | pull id =>
    rcases doing with phase | phase
    · rw [phase]
      exact ⟨engine, rfl⟩
    · rw [phase]
      exact ⟨_, by simp only [resume, resumePull, heeds, Bool.false_eq_true, if_false]; rfl⟩

theorem struck_of_woken (env : Environment) (coherent : engine.Coherent touched none)
    (heeds : engine.client.heedless = false) {errand : Errand} (does : engine.Does errand id)
    (serves : ∀ request, errand ≠ .watch request) (woken : engine.woken? = some id)
    (hit : engine.loop.Struck none id) : (engine.apply env .turn).loop.Struck none id := by
  rcases hit with runs | ended | ⟨found, unfinished, roused⟩
  · cases runs
  · have turned : Turned env engine (engine.apply env .turn) := turned_turn env coherent
    exact Or.inr (Or.inl (turned.ended coherent ended))
  · obtain ⟨rest, first, same⟩ := turn_of_woken env coherent woken unfinished
    obtain ⟨runner, runs⟩ := runner_of_woken env coherent first unfinished
    rw [incoming_of_roused roused] at runs same
    obtain ⟨last, gives⟩ := errand_cancelled env
      (show ({ engine with loop := engine.loop.wakeFirst rest id found.phase } : Engine).client.heedless =
        false from heeds) serves (does.2 found unfinished)
    rw [gives] at runs same
    rw [same]
    exact Or.inr (Or.inl (outcome?_conclude runs .cancelled))

/-! Doomed. -/

/-- The task goes on with a cancellation, now or when what it waits for has ended. -/
def Doomed (engine : Engine) (task : Nat) : Prop :=
  engine.loop.Struck none task ∨ ∃ activity target, engine.loop.Unfinished task activity ∧
    activity.waitingFor = some target ∧ engine.loop.Struck none target

/-- A completion whose call has begun waits for one who works for the client, or at the gate. -/
theorem Fits.waits_asked (fits : engine.Fits touched none task activity)
    (asked : activity.phase.asked = true) :
    (∃ errand target, activity.waitingFor = some target ∧ engine.Does errand target ∧
      ∀ request, errand ≠ .watch request) ∨ engine.Held activity := by
  cases fits with
  | calling call run phase waits does => exact Or.inl ⟨_, call, waits, does, nofun⟩
  | reading stream read run pieces found phase waits does =>
    exact Or.inl ⟨_, read, waits, does, nofun⟩
  | closing stream run outcome found phase held => exact Or.inr held
  | start _ phase | watching phase | answering _ phase | pulling _ phase | debouncing _ _ phase
  | unwinding _ _ _ phase =>
    rw [phase] at asked
    cases asked

/-- The cancellation of a completion whose call has begun reaches it, or the one it waits for. -/
theorem doomed_cancelTask (env : Environment) (coherent : engine.Coherent touched none)
    (known : engine.loop.Unfinished task activity) (asked : activity.phase.asked = true) :
    (engine.apply env (.cancelTask task)).Doomed task := by
  have completes : activity.phase.isCompletion = true := by
    generalize activity.phase = phase at asked
    unfold Phase.asked at asked
    split at asked <;> first | rfl | cases asked
  have same : engine.apply env (.cancelTask task) = engine.withLoop (·.cancel task) := by
    have there : engine.phaseOf task = some activity.phase :=
      phaseOf_eq_some_iff.mpr ⟨activity, known, rfl⟩
    simp [apply, cancelCompletion, cancelTask, there, completes]
  rw [same]
  have fits := coherent.fits task activity known fun same => by cases same
  rcases fits.waits_asked asked with ⟨errand, target, waits, does, -⟩ | held
  · obtain ⟨found, there⟩ := does.1
    have different : target ≠ task := by
      intro same
      subst same
      exact (does.leaf coherent).ne known waits rfl
    rcases (does.leaf coherent).struck_cancel_waiting known waits there different with hit | hit
    · exact Or.inl hit
    · obtain ⟨after, known', -, waiting⟩ := (steady_cancel engine task).after task activity known
      exact Or.inr ⟨after, target, known', waiting.trans waits, hit⟩
  · refine Or.inl (Loop.Leaf.struck_cancel (fun found target unfinished waits => ?_) known)
    cases known.unique unfinished
    obtain ⟨waiter, waits', bare, -⟩ := held
    cases waits.symm.trans waits'
    exact bare

/-- A cancellation that is on its way stays so until the task runs. -/
theorem Doomed.apply (env : Environment) (coherent : engine.Coherent touched none)
    (heeds : engine.client.heedless = false) (doomed : engine.Doomed task)
    (known : engine.loop.Unfinished task activity) (asked : activity.phase.asked = true)
    (unwoken : move = .turn → engine.woken? ≠ some task) : (engine.apply env move).Doomed task := by
  have moved := moved_apply env coherent move
  rcases doomed with hit | ⟨found, target, unfinished, waits, hit⟩
  · exact Or.inl (moved.struck coherent hit unwoken)
  · cases known.unique unfinished
    obtain ⟨after, known', -, waiting⟩ := moved.unfinished coherent known unwoken
    refine Or.inr ⟨after, target, known', waiting.trans waits, ?_⟩
    by_cases woken : move = .turn ∧ engine.woken? = some target
    · obtain ⟨rfl, woken⟩ := woken
      rcases (coherent.fits task activity known nofun).waits_asked asked with
        ⟨errand, target', waits', does, serves⟩ | held
      · cases waits.symm.trans waits'
        exact struck_of_woken env coherent heeds does serves woken hit
      · obtain ⟨waiter, waits', bare, -⟩ := held
        cases waits.symm.trans waits'
        obtain ⟨-, rest, first⟩ := woken?_eq_some_iff.mp woken
        obtain ⟨-, other, going⟩ := coherent.sound.ready target (first ▸ List.mem_cons_self ..)
        cases bare.2.symm.trans going.1
    · exact moved.struck coherent hit fun turn same => woken ⟨turn, same⟩

theorem Doomed.incoming (coherent : engine.Coherent touched none) (doomed : engine.Doomed task)
    {rest : List Handle} (first : engine.loop.ready = .wake task :: rest)
    (known : engine.loop.Unfinished task activity) : engine.incoming activity = .cancelled := by
  rcases doomed with hit | ⟨found, target, unfinished, waits, hit⟩
  · rcases hit with runs | ended | ⟨found, unfinished, roused⟩
    · cases runs
    · cases ended.symm.trans known.2
    · cases known.unique unfinished
      exact incoming_of_roused roused
  · cases known.unique unfinished
    have ended := (Loop.isDone_iff _ target).mp (done_of_first coherent first known waits)
    rcases hit with runs | cancelled | ⟨other, going, -⟩
    · cases runs
    · exact incoming_of_roused (Or.inr ⟨target, waits, cancelled⟩)
    · exact absurd going.2 ended

end Engine

end InlineCompletion
