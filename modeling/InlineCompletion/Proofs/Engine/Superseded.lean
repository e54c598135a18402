import InlineCompletion.Proofs.Engine.Generations
import InlineCompletion.Proofs.Engine.Traces

/-!
A request that has been replaced does nothing more. Its task runs on until what it waits for is over,
but it leaves no trace, and it ends with nothing to give.
-/

namespace InlineCompletion.Engine

variable {engine new : Engine} {env : Environment} {run : Run} {touched : Nat → Prop} {task : Nat}

/-- Whoever replaced the request has cancelled it. -/
theorem Ruled.gone (ruled : engine.Ruled) (works : engine.runOf task = some run)
    (stale : engine.Superseded run) : ∃ generation,
      engine.markOf run.request = some (true, generation) := by
  obtain ⟨current, generation, cancelled, born, tenure, mark, stands⟩ :=
    ruled.governed.runs task run works
  rcases stands with rfl | ⟨rfl, -⟩
  · obtain ⟨_, generation', _, born', tenure', mark', earlier⟩ := superseded_iff.mp stale
    obtain ⟨same, -⟩ := ruled.governed.current _ _ _ tenure
    cases tenure.symm.trans tenure'
    cases same.symm.trans mark'
    exact absurd earlier (Int.lt_irrefl _)
  · exact ⟨born, mark⟩

theorem Coherent.halted (coherent : engine.Coherent touched none) {request : Nat}
    {generation : Int} (gone : engine.markOf request = some (true, generation)) :
    ∃ found, engine.requests[request]? = some found ∧ engine.Halted found := by
  obtain ⟨found, known, same⟩ := Option.map_eq_some_iff.mp gone
  have cancelled : found.cancelled = true := congrArg Prod.fst same
  exact ⟨found, known, (coherent.requests request found known).halted cancelled⟩

theorem isLive_eq_false {generation : Int} (gone : engine.markOf run.request = some (true, generation)) :
    engine.isLive run = false := by
  cases live : engine.isLive run with
  | false => rfl
  | true => exact absurd gone (uncancelled_of_isLive live generation)

theorem superseded_iff_lt {current : Option Nat} {cancelled : Bool} {generation born : Int}
    (tenure : engine.tenureOf run.orchestrator = some (current, generation))
    (mark : engine.markOf run.request = some (cancelled, born)) :
    engine.Superseded run ↔ born < generation := by
  refine superseded_iff.trans ⟨?_, fun earlier => ⟨_, _, _, _, tenure, mark, earlier⟩⟩
  intro given
  obtain ⟨_, _, _, _, tenure', mark', earlier⟩ := given
  cases tenure.symm.trans tenure'
  cases mark.symm.trans mark'
  exact earlier

/-- A move takes the orchestrator on, if it replaces its request; the request keeps its generation. -/
theorem superseded_apply (env : Environment) (coherent : engine.Coherent touched none) (move : Move)
    {current : Option Nat} {cancelled : Bool} {generation born : Int}
    (tenure : engine.tenureOf run.orchestrator = some (current, generation))
    (mark : engine.markOf run.request = some (cancelled, born)) :
    (engine.apply env move).Superseded run ↔
      born < if engine.supersedes? move = some run.orchestrator then generation + 1
        else generation := by
  have advances := advances_apply env coherent move
  obtain ⟨cancelled', mark', -⟩ := advances.marks _ _ _ mark
  have later := advances.generations run.orchestrator
  rw [generationOf_eq, generationOf_eq, tenure] at later
  have known : ((engine.apply env move).tenureOf run.orchestrator).map (·.2) =
      some (if engine.supersedes? move = some run.orchestrator then generation + 1
        else generation) := by
    rw [later]
    split <;> rfl
  obtain ⟨tenure', seated, same⟩ := Option.map_eq_some_iff.mp known
  rw [superseded_iff_lt (show _ = some (tenure'.1, tenure'.2) from seated) mark', same]

theorem Superseded.apply (stale : engine.Superseded run) (env : Environment)
    (coherent : engine.Coherent touched none) (move : Move) :
    (engine.apply env move).Superseded run := by
  obtain ⟨current, generation, cancelled, born, tenure, mark, earlier⟩ := superseded_iff.mp stale
  rw [superseded_apply env coherent move tenure mark]
  split <;> omega

/-- What supersedes a request is a later completion or a cancellation of its orchestrator. -/
theorem Ruled.superseded_apply_iff (ruled : engine.Ruled) (env : Environment)
    (coherent : engine.Coherent touched none) (works : engine.runOf task = some run) (move : Move) :
    (engine.apply env move).Superseded run ↔
      engine.Superseded run ∨ engine.supersedes? move = some run.orchestrator := by
  obtain ⟨current, generation, cancelled, born, tenure, mark, stands⟩ :=
    ruled.governed.runs task run works
  have latest : born ≤ generation := by
    rcases stands with rfl | ⟨-, earlier⟩
    · obtain ⟨mark', -⟩ := ruled.governed.current _ _ _ tenure
      cases mark.symm.trans mark'
      exact Int.le_refl _
    · exact Int.le_of_lt earlier
  rw [superseded_apply env coherent move tenure mark, superseded_iff_lt tenure mark]
  split
  · next replaced => exact iff_of_true (Int.lt_add_one_of_le latest) (Or.inr replaced)
  · next others => simp [others]

/-! Its turns. -/

/-- The task has ended with nothing to give: it was cancelled only when that was wanted, and it
failed only with what stopped the loop. -/
def Void (touched : Nat → Prop) (engine : Engine) (task : Nat) : Prop :=
  ∃ result, engine.loop.outcome? task = some result ∧ (result = .value .nothing ∨
    (result = .cancelled ∧ touched task) ∨ engine.interrupted ≠ none)

/-- Nothing that others may know of changes. -/
structure Inert (old new : Engine) : Prop where
  orchestrators : new.orchestrators = old.orchestrators
  marks : ∀ id, new.markOf id = old.markOf id
  events : new.events = old.events

theorem Played.inert {old : Engine} {step : Step} {outcome : Outcome} {activity : Activity Phase}
    (played : Played env run old step) (stale : old.isLive run = false)
    (known : old.loop.Unfinished task activity) (works : activity.phase.run? = some run)
    (inOrder : InOrder touched task outcome step) :
    Inert old (conclude task step) ∧
      ((conclude task step).runOf task = some run ∨ Void touched (conclude task step) task) := by
  obtain ⟨orchestrators, requests, events⟩ := conclude_frame task step
  have silent : Silent old step.1 := by
    cases played with
    | waits new target phase deeds => exact Deeds.silent deeds stale
    | ends new result deeds =>
      have stale' : ¬new.isLive run = true := by simp [(Deeds.kept deeds).isLive, stale]
      unfold endRun
      rw [if_neg stale']
      exact Deeds.silent deeds stale
  obtain ⟨found, known', phase, -⟩ := silent.steady.after task activity known
  refine ⟨⟨orchestrators.trans silent.orchestrators,
    fun id => (markOf_of_requests requests id).trans (silent.marks id),
    events.trans silent.silent_events⟩, ?_⟩
  cases played with
  | waits new target phase deeds works' =>
    left
    rw [runOf_conclude_wait known', if_pos rfl]
    exact works'
  | ends new result deeds dull =>
    right
    have pending := (Loop.isPending_iff _ task).mpr ⟨known'.lt, known'.2⟩
    refine ⟨result, ?_, ?_⟩
    · show (conclude task ((new.endRun run result).1, .done result)).loop.outcome? task = _
      rw [loop_conclude_done, Loop.outcome?_settle, if_pos ⟨rfl, pending⟩]
    · rcases dull ((Deeds.kept deeds).isLive run ▸ stale) with nothing | cancelled | stops
      · exact Or.inl nothing
      · obtain ⟨-, ends⟩ := inOrder
        exact Or.inr (Or.inl ⟨cancelled, ends.wanted found run known' (phase ▸ works) cancelled⟩)
      · obtain ⟨failure, interrupts, rfl⟩ := stops
        right
        right
        show (conclude task ((new.endRun run (.failed failure)).1, .done (.failed failure))).interrupted ≠ _
        simp [conclude, interrupts]

/-- A turn of a cancelled request is inert, and it goes on waiting or ends with nothing to give. -/
theorem inert_turn (env : Environment) (coherent : engine.Coherent touched none)
    (works : engine.runOf task = some run) {generation : Int}
    (gone : engine.markOf run.request = some (true, generation)) (woken : engine.woken? = some task) :
    Inert engine (engine.apply env .turn) ∧ ((engine.apply env .turn).runOf task = some run ∨
      Void touched (engine.apply env .turn) task) := by
  have turned : Turned env engine (engine.apply env .turn) := turned_turn env coherent
  generalize engine.apply env .turn = next at *
  cases turned with
  | idle rests => exact ⟨⟨rfl, fun _ => rfl, rfl⟩, Or.inl works⟩
  | released waiter rest going first => simp [woken?, going, first] at woken
  | woken other rest activity awake going first known same =>
    subst same
    obtain rfl : other = task := by simpa [woken?, going, first] using woken
    obtain ⟨found, unfinished, mine⟩ := runOf_eq_some_iff.mp works
    cases known.unique unfinished
    have resumed := resumed_resume env coherent first known
    have inOrder := inOrder_resume env coherent first known
    have runs := (Loop.unfinished_wakeFirst rest known activity.phase other _).mpr (Or.inl ⟨rfl, rfl⟩)
    cases resumed with
    | plays run' works' played =>
      cases mine.symm.trans works'
      obtain ⟨inert, rests⟩ := played.inert (isLive_eq_false gone) runs mine inOrder
      exact ⟨⟨inert.orchestrators, inert.marks, inert.events⟩, rests⟩
    | begins orchestrator o run' starts =>
      cases mine.symm.trans (Phase.run?_of_starts starts)
    | absent orchestrator starts => cases mine.symm.trans (Phase.run?_of_starts starts)
    | assists idle => cases mine.symm.trans idle

/-! A whole run. -/

/-- The task still works for the request, or it has ended with nothing to give. -/
def Fading (touched : Nat → Prop) (engine : Engine) (task : Nat) (run : Run) : Prop :=
  engine.runOf task = some run ∨ Void touched engine task

theorem Fading.apply (env : Environment) (fading : Fading touched engine task run)
    (coherent : engine.Coherent touched none) (ruled : engine.Ruled)
    (stale : engine.Superseded run) (move : Move) :
    Fading touched (engine.apply env move) task run := by
  have moved := moved_apply env coherent move
  rcases fading with works | ⟨result, ended, nothing | wanted | stopped⟩
  · by_cases woken : move = .turn ∧ engine.woken? = some task
    · obtain ⟨rfl, woken⟩ := woken
      obtain ⟨generation, gone⟩ := ruled.gone works stale
      exact (inert_turn env coherent works gone woken).2
    · obtain ⟨activity, known, mine⟩ := runOf_eq_some_iff.mp works
      obtain ⟨found, unfinished, phase, -⟩ :=
        moved.unfinished coherent known fun turn => not_and.mp woken turn
      exact Or.inl (runOf_eq_some_iff.mpr ⟨found, unfinished, phase ▸ mine⟩)
  · exact Or.inr ⟨result, moved.ended coherent ended, Or.inl nothing⟩
  · exact Or.inr ⟨result, moved.ended coherent ended, Or.inr (Or.inl wanted)⟩
  · exact Or.inr ⟨result, moved.ended coherent ended, Or.inr (Or.inr (moved.interrupted stopped))⟩

theorem Fading.play (env : Environment) (fading : Fading touched engine task run)
    (coherent : engine.Coherent touched none) (ruled : engine.Ruled)
    (stale : engine.Superseded run) (moves : List Move)
    (wanted : ∀ task, .cancelTask task ∈ moves → touched task) :
    Fading touched (engine.play env moves) task run ∧ (engine.play env moves).Superseded run := by
  have step (now : Engine) (move : Move) (coherent : now.Coherent touched none)
      (all : Fading touched now task run ∧ now.Superseded run ∧ now.Ruled) :
      Fading touched (now.apply env move) task run ∧ (now.apply env move).Superseded run ∧
        (now.apply env move).Ruled := by
    obtain ⟨fading, stale, ruled⟩ := all
    exact ⟨Fading.apply env fading coherent ruled stale move, stale.apply env coherent move,
      ruled.apply env coherent move⟩
  have all := coherent.play_invariant env moves wanted step ⟨fading, stale, ruled⟩
  exact ⟨all.1, all.2.1⟩

end InlineCompletion.Engine
