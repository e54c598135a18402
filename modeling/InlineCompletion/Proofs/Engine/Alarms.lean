import Mathlib.Algebra.Order.BigOperators.Group.List
import Mathlib.Algebra.Order.Ring.Nat
import Mathlib.Data.List.TakeWhile
import InlineCompletion.Proofs.Engine.Endings
import InlineCompletion.Proofs.Engine.Tame

/-!
Completions end in time. Whoever waits for the time of a debounce will be released: a timer is set for
that, or the release is ready. So a completion ends whose loop goes on once the gate of the client is
open and enough time has passed.
-/

namespace InlineCompletion.Engine

variable {engine new : Engine} {env : Environment} {touched : Nat → Prop} {task waiter : Nat}
  {activity : Activity Phase}

/-- A release is on its way to the waiter. -/
def Due (engine : Engine) (waiter : Nat) : Prop :=
  .release waiter ∈ engine.loop.ready ∨ ∃ timer ∈ engine.loop.timers, timer.waiter = waiter

/-- Whoever waits for the time of a debounce will be released. -/
def Alarmed (engine : Engine) : Prop :=
  ∀ task activity watch run waiter, engine.loop.Unfinished task activity →
    activity.phase = .debouncing watch (some run) → activity.waitingFor = some waiter →
    engine.loop.outcome? waiter = none → engine.Due waiter

/-! A release that is due. -/

theorem Moved.ready {move : Move} (moved : Moved env engine move new) (waits : move ≠ .turn) :
    engine.loop.ready <+: new.loop.ready := by
  cases moved with
  | turned => exact absurd rfl waits
  | requested orchestrator document position => exact List.prefix_append ..
  | cancelled orchestrator next retires => exact retires.steady.ready
  | selected => exact List.prefix_refl _
  | cleared orchestrator notify =>
    unfold clearCacheFor
    dsimp only
    split <;> exact List.prefix_refl _
  | aside move next silent => exact silent.steady.ready

/-- The waiter whose release comes first has ended after the turn. -/
theorem released_turn (env : Environment) (coherent : engine.Coherent touched none)
    (going : engine.interrupted = none) {rest : List Handle}
    (first : engine.loop.ready = .release waiter :: rest) :
    (engine.apply env .turn).loop.outcome? waiter ≠ none := by
  have turned : Turned env engine (engine.apply env .turn) := turned_turn env coherent
  generalize engine.apply env .turn = next at turned
  cases turned with
  | idle rests =>
    rcases rests with stopped | empty
    · simp [going] at stopped
    · simp [empty] at first
  | released other later _ first' =>
    cases first.symm.trans first'
    have bare : ({ engine.loop with ready := rest } : Loop Phase).Bare waiter :=
      coherent.sound.readyReleases waiter (first ▸ List.mem_cons_self ..)
    show (({ engine.loop with ready := rest } : Loop Phase).settle waiter (.value .nothing)).outcome? waiter ≠ none
    rw [Loop.outcome?_settle]
    split
    · nofun
    · next ended =>
      intro unsettled
      exact ended ⟨rfl, (Loop.isPending_iff _ _).mpr ⟨bare.1, unsettled⟩⟩
  | woken task later activity awake _ first' => cases first.symm.trans first'

theorem Due.turn (env : Environment) (coherent : engine.Coherent touched none)
    (ready : .release waiter ∈ engine.loop.ready)
    (waits : (engine.apply env .turn).loop.outcome? waiter = none) :
    .release waiter ∈ (engine.apply env .turn).loop.ready := by
  cases going : engine.interrupted with
  | some failure =>
    have same : engine.apply env .turn = engine := by
      simp [apply, turn?, going]
    rw [same]
    exact ready
  | none =>
    obtain ⟨handle, rest, line⟩ := List.exists_cons_of_ne_nil (List.ne_nil_of_mem ready)
    rw [line] at ready
    rcases List.mem_cons.mp ready with rfl | later
    · exact absurd waits (released_turn env coherent going line)
    · exact (ready_turn env coherent going line).subset later

/-- A release stays due until it is made. -/
theorem Due.apply (due : engine.Due waiter) (env : Environment) (coherent : engine.Coherent touched none)
    (move : Move) (waits : (engine.apply env move).loop.outcome? waiter = none) :
    (engine.apply env move).Due waiter := by
  rcases due with ready | ⟨timer, member, mine⟩
  · left
    by_cases turns : move = .turn
    · subst turns
      exact Due.turn env coherent ready waits
    · exact ((moved_apply env coherent move).ready turns).subset ready
  · cases timeless : move.timeless with
    | true => exact Or.inr ⟨timer, (timely_apply env coherent move timeless).timers timer member, mine⟩
    | false =>
      cases move with
      | pass nanoseconds => exact Or.inr ⟨timer, member, mine⟩
      | fireTimers =>
        have parts := List.takeWhile_append_dropWhile
          (p := fun timer : Timer => decide (timer.deadline ≤ engine.loop.now)) (l := engine.loop.timers)
        rcases List.mem_append.mp (parts.symm ▸ member) with fires | stays
        · left
          exact List.mem_append_right _ (List.mem_map.mpr ⟨timer, fires, by rw [mine]⟩)
        · exact Or.inr ⟨timer, stays, mine⟩
      | _ => cases timeless

theorem Alarmed.apply (alarmed : engine.Alarmed) (env : Environment) (coherent : engine.Coherent touched none)
    (move : Move) : (engine.apply env move).Alarmed := by
  intro task activity watch run waiter known phase waiting waits
  cases (courses_apply env coherent move).bound task activity run known (by rw [phase]; rfl) with
  | asked asked =>
    rw [phase] at asked
    cases asked
  | stays found unwoken known' phase' waiting' =>
    refine (alarmed task found watch run waiter known' (phase'.trans phase) (waiting'.trans waiting) ?_).apply
      env coherent move waits
    cases ended : engine.loop.outcome? waiter with
    | none => rfl
    | some outcome => cases waits.symm.trans ((moved_apply env coherent move).ended coherent ended)
  | unwinds found watch' timedOut woken known' debounces guarded passed phase' => cases phase.symm.trans phase'
  | debounces o watch' waiter' begun found delayed phase' waiting' punctual timed =>
    cases waiting.symm.trans waiting'
    exact Or.inr timed

theorem alarmed_play (env : Environment) (client : Client) (seats : List (Settings × Cache Float))
    (moves : List Move) : (reached env client seats moves).Alarmed := by
  have coherent : (opening client seats).Coherent (fun _ => True) none := coherent_opening client seats
  refine coherent.play_invariant env moves (fun _ _ => trivial)
    (fun engine move coherent alarmed => alarmed.apply env coherent move) ?_
  intro task activity watch run waiter known
  cases known.1

/-- Once the time of every timer has come, whatever is due is ready. -/
theorem Due.fires (due : engine.Due waiter) (late : ∀ timer ∈ engine.loop.timers, timer.deadline ≤ engine.loop.now) :
    .release waiter ∈ (engine.withLoop (·.fireTimers)).loop.ready := by
  rcases due with ready | ⟨timer, member, mine⟩
  · exact List.mem_append_left _ ready
  · refine List.mem_append_right _ (List.mem_map.mpr ⟨timer, ?_, by rw [mine]⟩)
    rw [List.takeWhile_eq_self_iff.mpr fun other there => decide_eq_true (late other there)]
    exact member

/-! The end of a completion. -/

theorem Tame.later (env : Environment) (coherent : engine.Coherent (fun _ => True) none)
    (manned : engine.Manned) (tame : engine.Tame) (n : Nat) : (runTurns env n engine).Tame := by
  rw [runTurns_eq_play]
  refine tame.play env coherent manned fun move member => ?_
  rw [List.eq_of_mem_replicate member]
  trivial

theorem Tame.smooth (env : Environment) (coherent : engine.Coherent (fun _ => True) none)
    (manned : engine.Manned) (tame : engine.Tame) (opened : engine.client.gateOpen = true) :
    Smooth env engine where
  coherent := fun n => runTurns_eq_play env n engine ▸ coherent.play env _ fun _ _ => trivial
  going := fun n => (tame.later env coherent manned n).going
  manned := manned
  opened := opened

/-- A completion that is released from its debounce ends. -/
theorem Smooth.ends_released (smooth : Smooth env engine) (known : engine.loop.Unfinished task activity)
    {watch : Nat} {run : Run} (phase : activity.phase = .debouncing watch (some run))
    (waits : activity.waitingFor = some waiter) (ready : .release waiter ∈ engine.loop.ready) :
    ∃ n, (runTurns env n engine).loop.isDone task = true := by
  classical
  have comes : ∃ n, (runTurns env n engine).woken? = some task := by
    refine Classical.byContradiction fun never => ?_
    have unwoken := not_exists.mp never
    obtain ⟨n, rest, first⟩ := smooth.toUndisturbed.head ready
    have released := released_turn env (smooth.coherent n) (smooth.going n) first
    obtain ⟨found, unfinished, -, waiting⟩ := smooth.toUndisturbed.until (n := n + 1) known fun k _ => unwoken k
    obtain ⟨m, woken⟩ := (smooth.toUndisturbed.later (n + 1)).wakes_up unfinished fun target awaits pending => by
      cases (awaits.symm.trans waiting).trans waits
      rw [runTurns_turn] at pending
      exact released ((Loop.isPending_iff _ _).mp pending).2
    rw [← runTurns_add] at woken
    exact unwoken _ woken
  obtain ⟨now, unfinished, phase', -⟩ := smooth.toUndisturbed.until known fun k less => Nat.find_min comes less
  have woken := Nat.find_spec comes
  generalize Nat.find comes = n at *
  have later := smooth.later n
  have next := runTurns_turn env n engine
  rcases turn_done_or_waits env (later.coherent 0) woken unfinished with ended | ⟨found, unfinished'⟩
  · exact ⟨n + 1, next ▸ ended⟩
  have completes : now.phase.isCompletion = true := by
    rw [phase', phase]
    rfl
  obtain ⟨other, works⟩ := works_turn env (later.coherent 0) woken unfinished completes unfinished'
  cases later.onwards woken unfinished completes unfinished' with
  | nearer nearer =>
    rw [phase', phase] at nearer
    obtain ⟨m, done | ⟨enough, -⟩⟩ := later.turn.ends_or_sits unfinished' (by simp [Phase.isCompletion, works])
    · exact ⟨n + 1 + m, by rwa [runTurns_add, next]⟩
    · exact absurd nearer (Nat.not_lt_of_le enough)
  | reads id run' pieces t reads => cases reads.symm.trans (phase'.trans phase)

/-- The gate opens and the loop runs for a while, the time passes and the timers fire, and the loop runs
again. -/
def patience (first wait last : Nat) : List Move :=
  .openGate :: (List.replicate first .turn ++ .pass wait :: .fireTimers :: List.replicate last .turn)

/-- What has ended stays so in every run. -/
theorem ended_play (env : Environment) (coherent : engine.Coherent (fun _ => True) none) {outcome : Outcome}
    (ended : engine.loop.outcome? task = some outcome) (moves : List Move) :
    (engine.play env moves).loop.outcome? task = some outcome :=
  coherent.play_invariant env moves (fun _ _ => trivial)
    (fun _ move coherent ended => (moved_apply env coherent move).ended coherent ended) ended

theorem Alarmed.later (alarmed : engine.Alarmed) (env : Environment)
    (coherent : engine.Coherent (fun _ => True) none) (n : Nat) : (runTurns env n engine).Alarmed := by
  rw [runTurns_eq_play]
  exact coherent.play_invariant env _ (fun _ _ => trivial)
    (fun _ move coherent alarmed => alarmed.apply env coherent move) alarmed

/-- The time comes for every timer. -/
theorem late_of_passed (env : Environment) (engine : Engine) (timer : Timer)
    (member : timer ∈ engine.loop.timers) :
    timer.deadline ≤ (engine.apply env (.pass (engine.loop.timers.map Timer.deadline).sum)).loop.now := by
  have bound : timer.deadline ≤ (engine.loop.timers.map Timer.deadline).sum :=
    List.single_le_sum (fun _ _ => Nat.zero_le _) _ (List.mem_map_of_mem member)
  exact Nat.le_trans bound (Nat.le_add_left ..)

/-- A completion that waits for its debounce ends once the time for it has come. -/
theorem Smooth.ends_sitting (smooth : Smooth env engine) (coherent : engine.Coherent (fun _ => True) none)
    (tame : engine.Tame) (alarmed : engine.Alarmed) (sits : engine.Sits task) : ∃ wait last,
      (runTurns env last ((engine.apply env (.pass wait)).apply env .fireTimers)).loop.isDone task = true := by
  obtain ⟨sitter, watch, owner, waiter, unfinished, debounces, waiting, pending⟩ := sits
  obtain ⟨run, rfl, -⟩ := (coherent.fits task sitter unfinished nofun).of_debouncing debounces
  have unsettled : engine.loop.outcome? waiter = none := ((Loop.isPending_iff _ _).mp pending).2
  have due := alarmed task sitter watch run waiter unfinished debounces waiting unsettled
  have late (timer : Timer) := late_of_passed env engine timer
  generalize (engine.loop.timers.map Timer.deadline).sum = wait at late
  have passing : (engine.apply env (.pass wait)).Coherent (fun _ => True) none :=
    coherent.apply env _ fun _ _ => trivial
  have firing : ((engine.apply env (.pass wait)).apply env .fireTimers).Coherent (fun _ => True) none :=
    passing.apply env _ fun _ _ => trivial
  have ready : .release waiter ∈ ((engine.apply env (.pass wait)).apply env .fireTimers).loop.ready :=
    (due.apply env coherent (.pass wait) unsettled).fires late
  obtain ⟨passed, unfinished', phase', waiting'⟩ :=
    (moved_apply env coherent (.pass wait)).unfinished coherent unfinished fun turns => by cases turns
  obtain ⟨fired, unfinished'', phase'', waiting''⟩ :=
    (moved_apply env passing .fireTimers).unfinished passing unfinished' fun turns => by cases turns
  have passes : Move.Tame (.pass wait) := trivial
  have fires : Move.Tame .fireTimers := trivial
  have manned := smooth.manned.apply env coherent (.pass wait)
  have tame' := (tame.apply env coherent smooth.manned passes).apply env passing manned fires
  have smooth' : Smooth env ((engine.apply env (.pass wait)).apply env .fireTimers) :=
    tame'.smooth env firing (manned.apply env passing _) smooth.opened
  obtain ⟨last, done⟩ := smooth'.ends_released unfinished'' ((phase''.trans phase').trans debounces)
    ((waiting''.trans waiting').trans waiting) ready
  exact ⟨wait, last, done⟩

/-- With the gate open and the time passed, a completion ends whose loop goes on. -/
theorem Tame.completes (env : Environment) (coherent : engine.Coherent (fun _ => True) none)
    (manned : engine.Manned) (tame : engine.Tame) (alarmed : engine.Alarmed)
    (known : engine.loop.Unfinished task activity) (completes : activity.phase.isCompletion = true) :
    ∃ first wait last, (engine.play env (patience first wait last)).loop.isDone task = true := by
  obtain ⟨opened, known', phase, -⟩ :=
    (moved_apply env coherent .openGate).unfinished coherent known fun turns => by cases turns
  have coherent' : (engine.apply env .openGate).Coherent (fun _ => True) none :=
    coherent.apply env _ fun _ _ => trivial
  have manned' := manned.apply env coherent .openGate
  have tame' : (engine.apply env .openGate).Tame := tame.apply env coherent manned trivial
  have alarmed' := alarmed.apply env coherent .openGate
  have smooth : Smooth env (engine.apply env .openGate) := tame'.smooth env coherent' manned' rfl
  have later (first wait last : Nat) : engine.play env (patience first wait last) =
      runTurns env last (((runTurns env first (engine.apply env .openGate)).apply env (.pass wait)).apply env
        .fireTimers) := by
    show (engine.apply env .openGate).play env (List.replicate first .turn ++ _) = _
    rw [play_append, ← runTurns_eq_play, runTurns_eq_play env last]
    rfl
  obtain ⟨first, ended | ⟨-, sits⟩⟩ := smooth.ends_or_sits known' (phase ▸ completes)
  · refine ⟨first, 0, 0, ?_⟩
    rw [later]
    rw [Loop.isDone_iff] at ended ⊢
    obtain ⟨outcome, ended⟩ := Option.ne_none_iff_exists'.mp ended
    have last := ended_play env (smooth.coherent first) ended [.pass 0, .fireTimers]
    intro unsettled
    cases last.symm.trans unsettled
  · obtain ⟨wait, last, done⟩ := (smooth.later first).ends_sitting (smooth.coherent first)
      (tame'.later env coherent' manned' first) (alarmed'.later env coherent' first) sits
    exact ⟨first, wait, last, later first wait last ▸ done⟩

end InlineCompletion.Engine
