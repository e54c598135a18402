import InlineCompletion.Proofs.Engine.Progress

/-!
A request that has been superseded is inert. Nothing that its task still does is seen by others, and
the task ends with nothing to give as soon as the client lets it.
-/

namespace InlineCompletion.Engine

variable {engine : Engine} {env : Environment} {run : Run} {touched : Nat → Prop} {task : Nat}

/-- Only turns of the loop come, so that nobody is cancelled meanwhile. -/
theorem coherent_runTurns (coherent : engine.Coherent touched none) (env : Environment) (n : Nat) :
    (runTurns env n engine).Coherent touched none := by
  rw [runTurns_eq_play]
  refine coherent.play env _ fun task member => ?_
  cases List.eq_of_mem_replicate member

theorem ruled_runTurns (ruled : engine.Ruled) (coherent : engine.Coherent touched none)
    (env : Environment) (n : Nat) : (runTurns env n engine).Ruled := by
  rw [runTurns_eq_play]
  refine ruled.play env _ coherent fun task member => ?_
  cases List.eq_of_mem_replicate member

theorem fading_runTurns (fading : Fading touched engine task run)
    (coherent : engine.Coherent touched none) (ruled : engine.Ruled)
    (stale : engine.Superseded run) (env : Environment) (n : Nat) :
    Fading touched (runTurns env n engine) task run ∧ (runTurns env n engine).Superseded run := by
  rw [runTurns_eq_play]
  refine fading.play env coherent ruled stale _ fun task member => ?_
  cases List.eq_of_mem_replicate member

/-- A task that fades is over once the loop has run on for long enough. -/
theorem Fading.ends (fading : Fading touched engine task run)
    (coherent : engine.Coherent touched none) (ruled : engine.Ruled)
    (stale : engine.Superseded run) (env : Environment) : ∃ n,
      (runTurns env n engine).interrupted ≠ none ∨ Void touched (runTurns env n engine) task ∨
        HeldBack (runTurns env n engine) task := by
  refine Classical.byContradiction fun never => ?_
  have on (n : Nat) : (runTurns env n engine).interrupted = none ∧
      (runTurns env n engine).runOf task = some run ∧ ¬HeldBack (runTurns env n engine) task := by
    have others := not_exists.mp never n
    simp only [not_or, ne_eq, Decidable.not_not] at others
    obtain ⟨going, lasts, free⟩ := others
    exact ⟨going, (fading_runTurns fading coherent ruled stale env n).1.resolve_right lasts, free⟩
  refine not_lingers ⟨⟨coherent_runTurns coherent env, fun n => (on n).1⟩, fun n => (on n).2.1, fun n => ?_,
    fun n => (on n).2.2⟩
  exact (ruled_runTurns ruled coherent env n).gone (on n).2.1 (fading_runTurns fading coherent ruled stale env n).2

/-- Once a later completion or a cancellation has superseded a request, its task ends with nothing,
or cancelled when that was wanted, and it ends unless the loop is stopped or the client holds it back.
Until then its turns change no orchestrator, request or event, and no event is that of the request. -/
theorem superseded_inert (env : Environment) (client : Client)
    (seats : List (Settings × Cache Float)) (past next : List Move)
    (works : (reached env client seats past).runOf task = some run)
    (stale : (reached env client seats past).Superseded run) :
    ((reached env client seats (past ++ next)).runOf task = some run ∨
      Void (fun task => .cancelTask task ∈ past ++ next)
        (reached env client seats (past ++ next)) task) ∧
    ((reached env client seats (past ++ next)).woken? = some task →
      Inert (reached env client seats (past ++ next))
        ((reached env client seats (past ++ next)).apply env .turn)) ∧
    Tells (· ≠ run.request) (reached env client seats past)
      (reached env client seats (past ++ next)) ∧
    ∃ n, (runTurns env n (reached env client seats (past ++ next))).interrupted ≠ none ∨
      Void (fun task => .cancelTask task ∈ past ++ next)
        (runTurns env n (reached env client seats (past ++ next))) task ∨
      HeldBack (runTurns env n (reached env client seats (past ++ next))) task := by
  have later : reached env client seats (past ++ next) =
      (reached env client seats past).play env next := play_append ..
  have ruled := ruled_play env client seats past
  have coherent : (reached env client seats past).Coherent
      (fun task => .cancelTask task ∈ past ++ next) none := by
    refine (coherent_opening client seats).play env past fun task member => ?_
    exact List.mem_append_left next member
  have wanted (task : Nat) (member : .cancelTask task ∈ next) : .cancelTask task ∈ past ++ next :=
    List.mem_append_right past member
  have coherent' := coherent.play env next wanted
  have ruled' := ruled.play env next coherent wanted
  have fading : Fading (fun task => .cancelTask task ∈ past ++ next)
      (reached env client seats past) task run := Or.inl works
  obtain ⟨fading', stale'⟩ := fading.play env coherent ruled stale next wanted
  obtain ⟨generation, gone⟩ := ruled.gone works stale
  rw [← later] at coherent' ruled' fading' stale'
  refine ⟨fading', fun woken => ?_, later ▸ tells_play env coherent next wanted gone,
    Fading.ends fading' coherent' ruled' stale' env⟩
  have works' : (reached env client seats (past ++ next)).runOf task = some run := by
    refine fading'.resolve_right fun ⟨result, ended, _⟩ => ?_
    obtain ⟨-, rest, first⟩ := woken?_eq_some_iff.mp woken
    obtain ⟨-, activity, unfinished⟩ := coherent'.sound.ready task (first ▸ List.mem_cons_self ..)
    cases ended.symm.trans unfinished.2
  obtain ⟨generation', gone'⟩ := ruled'.gone works' stale'
  exact (inert_turn env coherent' works' gone' woken).1

/-- A completion begins, and is cancelled while it debounces. -/
def cancelledEarly : List Move :=
  [.request 0 blank ⟨0, 0⟩, .turn, .cancel 0]

/-- Three turns later its task is over. -/
theorem cancelledEarly_inert :
    (solo {} cancelledEarly).runOf 0 = some firstRun ∧ (solo {} cancelledEarly).Superseded firstRun ∧
      Void (fun task => .cancelTask task ∈ cancelledEarly ++ [.turn, .turn, .turn])
        (solo {} (cancelledEarly ++ [.turn, .turn, .turn])) 0 := by
  have works : (solo {} cancelledEarly).runOf 0 = some firstRun := by decide
  have stale : (solo {} cancelledEarly).Superseded firstRun := ⟨_, _, rfl, rfl, by decide⟩
  have inert := superseded_inert _ _ _ cancelledEarly [.turn, .turn, .turn] works stale
  exact ⟨works, stale, inert.1.resolve_left (by decide)⟩

end InlineCompletion.Engine
