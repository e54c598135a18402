import Mathlib.Data.List.Induction
import InlineCompletion.Proofs.Engine.Collecting

/-!
An abort against the one who collects the stream. The abort cancels the read that is under way, and
nothing asks later whether there was one: a read that was over before the abort, but not yet taken,
decides by itself what the collector gets.
-/

namespace InlineCompletion.Engine

open Loop (Stirred)

variable {engine : Engine} {env : Environment} {aborted : Bool} {spot next : Spot}
  {task read : Nat} {pieces : List Text} {move : Move}

/-! What a move leaves to those who do not run. -/

/-- What has ended stays so, and whoever was struck still is. -/
structure Spares (old new : Loop Phase) : Prop where
  ended : ∀ id outcome, old.outcome? id = some outcome → new.outcome? id = some outcome
  struck : ∀ task, old.Struck none task → new.Struck none task

theorem Spares.of_stirred {struck : Nat → Prop} {old new : Loop Phase}
    (stirred : Stirred struck old new) : Spares old new :=
  ⟨fun _ _ ended => stirred.ended ended, fun _ hit => stirred.struck_after hit⟩

theorem spares_settle {loop : Loop Phase} {waiter : Nat} (bare : loop.Bare waiter) :
    Spares loop (loop.settle waiter (.value .nothing)) := by
  have calm : ∀ failure, Outcome.value .nothing ≠ .failed failure := nofun
  have settled : Stirred (fun _ => False) loop (loop.settle waiter (.value .nothing)) :=
    Loop.stirred_settle bare calm nofun
  exact .of_stirred settled

theorem spares_settleAll {loop : Loop Phase} {waiters : List Nat}
    (bare : ∀ waiter ∈ waiters, loop.Bare waiter) : Spares loop
      (waiters.foldl (fun l waiter => l.settle waiter (.value .nothing)) loop) := by
  induction waiters generalizing loop with
  | nil => exact ⟨fun _ _ => id, fun _ => id⟩
  | cons waiter rest ih =>
    have first := spares_settle (bare waiter (List.mem_cons_self ..))
    have left : ∀ other ∈ rest, (loop.settle waiter (.value .nothing)).Bare other :=
      fun other member =>
        (Loop.bare_settle waiter other _).mpr (bare other (List.mem_cons_of_mem _ member))
    have later := ih left
    exact ⟨fun id outcome ended => later.ended id outcome (first.ended id outcome ended),
      fun task hit => later.struck task (first.struck task hit)⟩

/-- Beside the loop nobody strikes or ends a task. -/
theorem Stands.spares (env : Environment) (stands : Stands engine aborted spot)
    (passive : move.passive = true) (waits : move ≠ .turn) :
    Spares engine.loop (engine.apply env move).loop := by
  have same : Spares engine.loop engine.loop := ⟨fun _ _ => id, fun _ => id⟩
  cases move with
  | turn => exact absurd rfl waits
  | fireTimers => exact .of_stirred (Loop.grown_fireTimers stands.sound.timed).stirred
  | pass nanoseconds => exact .of_stirred (Loop.grown_advance engine.loop nanoseconds).stirred
  | openGate => exact spares_settleAll stands.gate
  | proceed waiter =>
    show Spares engine.loop (engine.proceed waiter).loop
    unfold Engine.proceed
    split
    · next member => exact spares_settle (stands.gate waiter member)
    · exact same
  | closeGate | script | rescript => exact same
  | request | cancel | selectModel | clearCache | cancelTask | abort => cases passive

/-- Whatever the collector or its read does, the others keep their places. -/
theorem Stands.steady (env : Environment) (stands : Stands engine aborted spot)
    {activity : Activity Phase} (known : engine.loop.Unfinished task activity) (old : Engine)
    (outcome : Outcome) : Steady old (old.resume env activity.phase outcome).1 := by
  have collects (now : Engine) (pieces : List Text) : Steady now (now.startCollect 0 pieces).1 := by
    have begun : Silent now (now.beginRead 0).2 := aside_beginRead now 0
    unfold startCollect
    split
    all_goals
      next same =>
      rw [same] at begun
      exact begun.steady
  by_cases mine : task = 0
  · subst mine
    have here := stands.here
    cases spot with
    | fresh =>
      cases known.unique here
      cases outcome with
      | failed | cancelled => exact .refl old
      | value v => exact collects old []
    | reading pieces read =>
      cases known.unique here.1
      have ended : Silent old (old.endRead 0 outcome).2 := aside_endRead old 0 outcome
      show Steady old (old.resumeReading env 0 (.collect pieces) outcome).1
      unfold resumeReading
      dsimp only
      cases (old.endRead 0 outcome).1 with
      | failed | cancelled => exact ended.steady
      | value v =>
        cases v with
        | text t => exact ended.steady.trans (collects _ _)
        | nothing | truth | drained => exact ended.steady
    | finished outcome => cases known.2.symm.trans here
  · rcases (stands.others task activity known mine).2 with ⟨phase, -⟩ | ⟨phase, -⟩
    · rw [phase]
      cases outcome with
      | failed | cancelled => exact .refl old
      | value v => exact (assists_startPull old 0).aside.steady
    · rw [phase]
      exact (assists_resumePull old 0 outcome).aside.steady

theorem Stands.ended (env : Environment) (stands : Stands engine aborted spot)
    (passive : move.passive = true) {id : Nat} {outcome : Outcome}
    (ended : engine.loop.outcome? id = some outcome) :
    (engine.apply env move).loop.outcome? id = some outcome := by
  by_cases waits : move = .turn
  · subst waits
    have turned : Turned env engine (engine.apply env .turn) := turned_of_sound env stands.sound
    exact turned.ended_of_steady (fun _ _ _ _ known => stands.steady env known _ _) ended
  · exact (stands.spares env passive waits).ended id outcome ended

/-- A read that is to be cancelled stays so until it is, if the client minds that. -/
theorem Stands.struck (env : Environment) (stands : Stands engine aborted (.reading pieces read))
    (passive : move.passive = true) (heeds : engine.client.heedless = false)
    (hit : engine.loop.Struck none read) : (engine.apply env move).loop.Struck none read := by
  by_cases waits : move = .turn
  case neg => exact (stands.spares env passive waits).struck read hit
  subst waits
  rcases hit with runs | finished | ⟨activity, unfinished, roused⟩
  · cases runs
  · exact Or.inr (Or.inl (stands.ended env passive finished))
  have turned : Turned env engine (engine.apply env .turn) := turned_of_sound env stands.sound
  generalize engine.apply env .turn = next at *
  cases turned with
  | idle => exact Or.inr (Or.inr ⟨activity, unfinished, roused⟩)
  | released waiter rest going first =>
    have bare := stands.sound.readyReleases waiter (first ▸ List.mem_cons_self ..)
    have stirred := stirred_release first bare .nothing
    exact stirred.struck_after (Or.inr (Or.inr ⟨activity, unfinished, roused⟩))
  | woken task rest activity' awake going first known same =>
    subst same
    obtain ⟨waits, other, -⟩ := stands.here
    obtain ⟨found, known', finished, -⟩ := Loop.Sound.wake stands.sound first
    by_cases mine : task = 0
    · -- The collector goes on only when its read is finished.
      subst mine
      cases known'.unique waits
      have ended := (Loop.isDone_iff _ _).mp (finished read rfl)
      exact absurd unfinished.2 ended
    obtain ⟨reads, pulls⟩ := stands.others task activity' known mine
    cases reads
    cases known.unique unfinished
    have incoming := incoming_of_roused roused
    have pulls' := pulls.wake known rest
    have steady := stands.steady env known
      { engine with loop := engine.loop.wakeFirst rest read activity.phase } .cancelled
    have cancelled := resume_of_cancelled env pulls' heeds
    have runs := (Loop.unfinished_wakeFirst rest known activity.phase read _).mpr (Or.inl ⟨rfl, rfl⟩)
    rw [incoming]
    obtain ⟨_, runs', -⟩ := steady.after read _ runs
    generalize Engine.resume _ env activity.phase .cancelled = step at *
    obtain ⟨new, verdict⟩ := step
    obtain rfl : verdict = .done .cancelled := cancelled
    have pending := (Loop.isPending_iff _ read).mpr ⟨runs'.lt, runs'.2⟩
    refine Or.inr (Or.inl ?_)
    rw [loop_conclude_done, Loop.outcome?_settle, if_pos ⟨rfl, pending⟩]

/-! The abort. -/

/-- A read waits for nothing but bare futures. -/
theorem Pulls.leaf {activity : Activity Phase} (pulls : engine.Pulls activity)
    (known : engine.loop.Unfinished read activity) : engine.loop.Leaf read := by
  intro other target unfinished waits
  cases known.unique unfinished
  rcases pulls with ⟨-, idle⟩ | ⟨-, waiter, waits', bare, -⟩
  · cases idle.symm.trans waits
  · cases waits.symm.trans waits'
    exact bare

theorem gateWaiters_finishStream (engine : Engine) (id : Nat) :
    (engine.finishStream id).client.gateWaiters = engine.client.gateWaiters := by
  unfold finishStream
  split
  · rfl
  · split
    · rfl
    · split <;> rfl

/-- The stream is marked and closed. -/
theorem Stands.marked (stands : Stands engine false spot) :
    Stands ((engine.modifyStream 0 fun s => { s with aborted := true }).finishStream 0) true spot := by
  have tidy : Tidy (engine.modifyStream 0 fun s => { s with aborted := true }) none true spot.read? :=
    stands.toTidy.reviseStream (fun _ _ => rfl) fun _ same => same
  have loop := (finishStream_frame (engine.modifyStream 0 fun s => { s with aborted := true }) 0).1
  refine ⟨tidy.finishStream, loop ▸ stands.here, fun task activity unfinished other => ?_⟩
  obtain ⟨reads, pulls⟩ := stands.others task activity (loop ▸ unfinished) other
  refine ⟨reads, pulls.imp_right fun ⟨phase, waiter, waits, bare, held⟩ => ?_⟩
  refine ⟨phase, waiter, waits, loop ▸ bare, fun pending => ?_⟩
  rw [loop] at pending
  rw [gateWaiters_finishStream]
  exact held pending

/-- The read is cancelled: it is told so, or what it waits for ends so. -/
theorem Stands.cancelRead (stands : Stands engine false (.reading pieces read)) :
    Stands (engine.withLoop (·.cancel read)) false (.reading pieces read) ∧
      (engine.loop.outcome? read = none → (engine.loop.cancel read).Struck none read) := by
  obtain ⟨-, other, activity, known⟩ := stands.here
  have step : Loop.Cancelled engine.loop read (engine.loop.cancel read) := Loop.cancelled_cancel read
  have leaf : engine.loop.Leaf read := by
    intro found target unfinished
    exact (stands.others read found unfinished other).2.leaf unfinished found target unfinished
  have stirred := (step.stirred stands.sound known).mono fun last chained =>
    show (Spot.reading pieces read).read? = some last by rw [leaf.chained chained]; rfl
  refine ⟨stands.stirred stirred (stands.sound.cancelled step) fun id outside => ?_, fun going => ?_⟩
  · exact Loop.activity?_of_length_le _ (step.length ▸ outside)
  · exact leaf.struck_cancel ⟨known, going⟩

theorem Stands.abortStream (stands : Stands engine false spot) :
    Stands (engine.abortStream 0) true spot ∧ ∀ pieces read, spot = .reading pieces read →
      engine.loop.outcome? read = none → (engine.abortStream 0).loop.Struck none read := by
  obtain ⟨found, known, going, waits⟩ := stands.stream
  have aborts : engine.abortStream 0 = ((engine.cancelRead spot.read?).modifyStream 0 fun s =>
      { s with aborted := true }).finishStream 0 := by
    unfold Engine.abortStream
    simp only [known, going, waits]
    cases spot.read? <;> rfl
  rw [aborts]
  cases spot with
  | fresh | finished outcome => exact ⟨stands.marked, nofun⟩
  | reading pieces read =>
    obtain ⟨stands', strikes⟩ := stands.cancelRead
    refine ⟨stands'.marked, fun pieces' read' same pending => ?_⟩
    cases same
    rw [(finishStream_frame _ 0).1]
    exact strikes pending

/-! A run. -/

theorem stands_collecting (client : Client) (source : Source) (reported : Bool) :
    Stands (collecting client source reported) false .fresh := by
  let loop : Loop Phase := ({} : Loop Phase)
  have nobody (task : Nat) (activity : Activity Phase) : ¬loop.Unfinished task activity :=
    fun unfinished => nomatch unfinished.1
  have sound : loop.Sound none := Loop.sound_empty
  have spawned (task : Nat) (activity : Activity Phase) :
      (collecting client source reported).loop.Unfinished task activity ↔
        (task = 0 ∧ activity = { phase := .start (.collect 0) }) ∨ loop.Unfinished task activity :=
    Loop.unfinished_spawn _ task activity
  refine ⟨⟨sound.spawn _, nofun, fun _ => rfl, ⟨_, rfl, rfl, rfl⟩⟩, (spawned 0 _).mpr (Or.inl ⟨rfl, rfl⟩),
    fun task activity unfinished other => ?_⟩
  rcases (spawned task activity).mp unfinished with ⟨same, -⟩ | known
  · exact absurd same other
  · exact absurd known (nobody task activity)

theorem Stands.play (env : Environment) (stands : Stands engine aborted spot) (moves : List Move)
    (passive : ∀ move ∈ moves, move.passive = true) :
    ∃ next, Stands (engine.play env moves) aborted next := by
  induction moves generalizing engine spot with
  | nil => exact ⟨spot, stands⟩
  | cons move rest ih =>
    obtain ⟨next, stands', -⟩ := stands.apply env (passive move (List.mem_cons_self ..))
    exact ih stands' fun other member => passive other (List.mem_cons_of_mem _ member)

theorem Stands.play_ended (env : Environment) (stands : Stands engine aborted spot) (moves : List Move)
    (passive : ∀ move ∈ moves, move.passive = true) {id : Nat} {outcome : Outcome}
    (ended : engine.loop.outcome? id = some outcome) :
    (engine.play env moves).loop.outcome? id = some outcome := by
  induction moves generalizing engine spot with
  | nil => exact ended
  | cons move rest ih =>
    have first := passive move (List.mem_cons_self ..)
    obtain ⟨next, stands', -⟩ := stands.apply env first
    exact ih stands' (fun other member => passive other (List.mem_cons_of_mem _ member))
      (stands.ended env first ended)

/-- From the abort on, the collector waits where it was, or it is over as the last read decided. -/
theorem Stands.play_aborted (env : Environment) (stands : Stands engine true spot) (moves : List Move)
    (passive : ∀ move ∈ moves, move.passive = true) : ∃ next,
      Stands (engine.play env moves) true next ∧
        Onward true (engine.play env moves) spot next := by
  -- The run is taken from its end, so that the spot at the abort stays the same.
  induction moves using List.reverseRecOn with
  | nil => exact ⟨spot, stands, .stays⟩
  | append_singleton moves move ih =>
    obtain ⟨middle, stands', onward⟩ := ih fun other member => passive other (List.mem_append_left _ member)
    have last : move.passive = true := passive move (by simp)
    rw [play_append]
    show ∃ next, Stands ((engine.play env moves).apply env move) true next ∧
      Onward true ((engine.play env moves).apply env move) spot next
    obtain ⟨next, stands'', onward'⟩ := stands'.apply env last
    refine ⟨next, stands'', ?_⟩
    have finished (outcome : Outcome) (past : middle = .finished outcome) : next = .finished outcome := by
      subst past
      cases onward' with
      | stays => rfl
      | reads _ going => cases going
      | refused fresh => cases fresh
      | ends _ _ _ waits => cases waits
    cases onward with
    | reads _ going => cases going
    | refused fresh =>
      rw [finished _ rfl]
      exact .refused fresh
    | ends pieces read outcome waits ended =>
      rw [finished _ rfl]
      exact .ends pieces read outcome waits (stands'.ended env last ended)
    | stays =>
      cases onward' with
      | stays => exact .stays
      | reads _ going => cases going
      | refused fresh => exact .refused fresh
      | ends pieces read outcome waits ended =>
        exact .ends pieces read outcome waits (stands'.ended env last ended)

/-- As long as the client minds being cancelled, a read that is to be cancelled ends so. -/
theorem Stands.play_struck (env : Environment) (stands : Stands engine true (.reading pieces read))
    (moves : List Move) (passive : ∀ move ∈ moves, move.passive = true)
    (heeds : ∀ before after, moves = before ++ after →
      (engine.play env before).client.heedless = false)
    (hit : engine.loop.Struck none read) : (engine.play env moves).loop.Struck none read := by
  induction moves using List.reverseRecOn with
  | nil => exact hit
  | append_singleton moves move ih =>
    have earlier : ∀ other ∈ moves, other.passive = true :=
      fun other member => passive other (List.mem_append_left _ member)
    have last : move.passive = true := passive move (by simp)
    have hit' := ih earlier fun before after split => heeds before (after ++ [move]) (by simp [split])
    obtain ⟨next, stands', onward⟩ := stands.play_aborted env moves earlier
    rw [play_append]
    show ((engine.play env moves).apply env move).loop.Struck none read
    cases onward with
    | stays => exact stands'.struck env last (heeds moves [move] rfl) hit'
    | reads _ going => cases going
    | refused fresh => cases fresh
    | ends pieces read outcome waits ended =>
      cases waits
      refine Or.inr (Or.inl (stands'.ended env last ?_))
      rcases hit' with runs | finished | ⟨activity, unfinished, -⟩
      · cases runs
      · exact finished
      · cases ended.symm.trans unfinished.2

/-! The collector is over in the end. -/

/-- The collector goes on for ever, and nothing holds it back. -/
structure Dwells (env : Environment) (engine : Engine) (spot : Spot) : Prop where
  stands : ∀ n, Stands (runTurns env n engine) true spot
  going : ∀ n, (runTurns env n engine).interrupted = none
  lasts : ∀ n, (runTurns env n engine).loop.isDone 0 ≠ true
  free : ∀ n, ¬HeldBack (runTurns env n engine) 0

theorem Dwells.later (dwells : Dwells env engine spot) (m : Nat) :
    Dwells env (runTurns env m engine) spot where
  stands := fun n => runTurns_add env m n engine ▸ dwells.stands (m + n)
  going := fun n => runTurns_add env m n engine ▸ dwells.going (m + n)
  lasts := fun n => runTurns_add env m n engine ▸ dwells.lasts (m + n)
  free := fun n => runTurns_add env m n engine ▸ dwells.free (m + n)

theorem Stands.ready_turn (env : Environment) (stands : Stands engine aborted spot)
    (going : engine.interrupted = none) {handle : Handle} {rest : List Handle}
    (line : engine.loop.ready = handle :: rest) : rest <+: (engine.apply env .turn).loop.ready := by
  have turned : Turned env engine (engine.apply env .turn) := turned_of_sound env stands.sound
  exact turned.ready going line fun task activity _ known => stands.steady env known _ _

/-- A task that stands in the line runs. It is not the collector, and it is over then. -/
theorem Dwells.runs (dwells : Dwells env engine spot) (ready : .wake task ∈ engine.loop.ready) :
    task ≠ 0 ∧ ∃ n, (runTurns env n engine).loop.isDone task = true := by
  obtain ⟨before, after, line⟩ := List.append_of_mem ready
  obtain ⟨n, rest, first⟩ := comes_of_prefix (fun n handle rest there => by
    rw [runTurns_turn]
    exact (dwells.stands n).ready_turn env (dwells.going n) there) line
  have stands := dwells.stands n
  have lasts := dwells.lasts (n + 1)
  have free := dwells.free (n + 1)
  suffices ended : task ≠ 0 ∧ (runTurns env (n + 1) engine).loop.isDone task = true from
    ⟨ended.1, n + 1, ended.2⟩
  rw [runTurns_turn] at lasts free ⊢
  have turned : Turned env (runTurns env n engine) ((runTurns env n engine).apply env .turn) :=
    turned_of_sound env stands.sound
  have going := dwells.going n
  generalize (runTurns env n engine).apply env .turn = new at *
  cases turned with
  | idle rests =>
    rcases rests with stopped | empty
    · simp [going] at stopped
    · simp [empty] at first
  | released waiter later _ first' => cases first.symm.trans first'
  | woken other later activity awake _ first' known same =>
    cases first.symm.trans first'
    subst same
    obtain ⟨next, stands', -, ⟨mine, finished⟩ | ended | held⟩ := stands.woken env first known
    · obtain ⟨outcome, rfl⟩ := finished rfl
      refine absurd ((Loop.isDone_iff _ 0).mpr fun unsettled => ?_) lasts
      cases unsettled.symm.trans stands'.here
    · refine ⟨fun mine => lasts ?_, ended⟩
      rw [← mine]
      exact ended
    · exact absurd held free

theorem not_dwells : ¬Dwells env engine spot := by
  intro dwells
  have here := (dwells.stands 0).here
  -- Whoever is awake runs, so the collector sleeps on.
  have asleep (n : Nat) {activity : Activity Phase}
      (known : (runTurns env n engine).loop.Unfinished 0 activity) :
      (runTurns env n engine).loop.Asleep 0 activity := by
    rcases (dwells.stands n).sound.rests 0 activity known nofun with awake | asleep
    · have ready : .wake 0 ∈ (runTurns env n engine).loop.ready :=
        List.count_pos_iff.mp (awake.1 ▸ Nat.one_pos)
      exact absurd rfl ((dwells.later n).runs ready).1
    · exact asleep
  have going (n : Nat) {pieces : List Text} {read : Nat} (same : spot = .reading pieces read) :
      (runTurns env n engine).loop.isDone read ≠ true := by
    intro ended
    subst same
    obtain ⟨known, -⟩ := (dwells.stands n).here
    obtain ⟨-, -, target, waits, pending, -⟩ := asleep n known
    cases waits
    exact Loop.not_done_of_pending pending ended
  cases spot with
  | fresh =>
    obtain ⟨-, -, target, waits, -⟩ := asleep 0 here
    cases waits
  | finished outcome => exact dwells.lasts 0 ((Loop.isDone_iff _ 0).mpr fun unsettled => by
      cases unsettled.symm.trans here)
  | reading pieces read =>
    obtain ⟨known, other, activity, reads⟩ := here
    have unfinished : engine.loop.Unfinished read activity := by
      refine ⟨reads, Decidable.not_not.mp fun ended => ?_⟩
      exact going 0 rfl ((Loop.isDone_iff _ read).mpr ended)
    rcases (dwells.stands 0).sound.rests read activity unfinished nofun with awake | asleep
    · have ready : .wake read ∈ engine.loop.ready :=
        List.count_pos_iff.mp (awake.1 ▸ Nat.one_pos)
      obtain ⟨-, n, ended⟩ := dwells.runs ready
      exact going n rfl ended
    · obtain ⟨-, -, target, waits, pending, -⟩ := asleep
      rcases ((dwells.stands 0).others read activity unfinished other).2 with
        ⟨-, idle⟩ | ⟨-, waiter, waits', -, held⟩
      · cases idle.symm.trans waits
      · cases waits.symm.trans waits'
        have member := held pending
        refine dwells.free 0 ⟨?_, _, read, known, rfl, Or.inr ⟨activity, target, unfinished, waits, member⟩⟩
        cases shut : (runTurns env 0 engine).client.gateOpen with
        | false => rfl
        | true =>
          rw [(dwells.stands 0).open_gate shut] at member
          cases member

theorem Stands.settles (env : Environment) (stands : Stands engine true spot) : ∃ n,
    (runTurns env n engine).interrupted ≠ none ∨ (runTurns env n engine).loop.isDone 0 = true ∨
      HeldBack (runTurns env n engine) 0 := by
  refine Classical.byContradiction fun never => ?_
  have on (n : Nat) : (runTurns env n engine).interrupted = none ∧
      (runTurns env n engine).loop.isDone 0 ≠ true ∧ ¬HeldBack (runTurns env n engine) 0 := by
    have others := not_exists.mp never n
    simp only [not_or, ne_eq, Decidable.not_not] at others
    exact others
  suffices dwells : Dwells env engine spot from not_dwells dwells
  refine ⟨fun n => ?_, fun n => (on n).1, fun n => (on n).2.1, fun n => (on n).2.2⟩
  have lasts := (on n).2.1
  rw [runTurns_eq_play] at lasts ⊢
  obtain ⟨next, stands', onward⟩ := stands.play_aborted env (List.replicate n .turn)
    fun move member => List.eq_of_mem_replicate member ▸ rfl
  have unfinished (outcome : Outcome) : next ≠ .finished outcome := by
    intro finished
    subst finished
    refine lasts ((Loop.isDone_iff _ 0).mpr fun unsettled => ?_)
    cases unsettled.symm.trans stands'.here
  cases onward with
  | stays => exact stands'
  | reads _ going => cases going
  | refused | ends => exact absurd rfl (unfinished _)

/-! The abort comes too late. -/

/-- A stream that someone collects, after these moves. -/
abbrev collectedUntil (env : Environment) (client : Client) (source : Source) (reported : Bool)
    (past : List Move) : Engine :=
  (collecting client source reported).play env past

/-- The stream is aborted then, and the loop goes on. -/
abbrev abortedThen (env : Environment) (client : Client) (source : Source) (reported : Bool)
    (past next : List Move) : Engine :=
  ((collectedUntil env client source reported past).abortStream 0).play env next

/-- The read that the collector waits for is over, with the end of the stream or with a failure. -/
def Outrun (engine : Engine) : Prop :=
  ∃ pieces read outcome, engine.loop.Unfinished 0
      { phase := .reading 0 (.collect pieces), waitingFor := some read } ∧
    engine.loop.outcome? read = some outcome ∧ outrun pieces outcome ≠ .failed streamAborted

/-- Whatever the source does, a collector that is not over when its stream is aborted is over as soon
as the client lets it. It fails with the abort, as long as the client minds being cancelled, exactly
if the read that it waits for was not yet over with the end of the stream or with another failure;
else it gets the text collected so far, or that failure. -/
theorem aborted_iff_not_outrun (env : Environment) (client : Client) (source : Source)
    (reported : Bool) (past next : List Move)
    (passive : ∀ move ∈ past ++ next, move.passive = true)
    (lasts : (collectedUntil env client source reported past).loop.isDone 0 = false) :
    ((∀ early late, next = early ++ late →
        (abortedThen env client source reported past early).client.heedless = false) →
      ∀ outcome, (abortedThen env client source reported past next).loop.outcome? 0 = some outcome →
        (outcome = .failed streamAborted ↔
          ¬(collectedUntil env client source reported past).Outrun)) ∧
    (∀ pieces read, (collectedUntil env client source reported past).loop.Unfinished 0
        { phase := .reading 0 (.collect pieces), waitingFor := some read } →
      ∀ outcome, (abortedThen env client source reported past next).loop.outcome? 0 = some outcome →
        ∃ last, (abortedThen env client source reported past next).loop.outcome? read = some last ∧
          outcome = outrun pieces last) ∧
    ∃ n, (runTurns env n (abortedThen env client source reported past next)).interrupted ≠ none ∨
      (runTurns env n (abortedThen env client source reported past next)).loop.isDone 0 = true ∨
      HeldBack (runTurns env n (abortedThen env client source reported past next)) 0 := by
  have earlier : ∀ move ∈ past, move.passive = true :=
    fun move member => passive move (List.mem_append_left next member)
  have later : ∀ move ∈ next, move.passive = true :=
    fun move member => passive move (List.mem_append_right past member)
  obtain ⟨spot, before⟩ := (stands_collecting client source reported).play env past earlier
  obtain ⟨stopped, strikes⟩ := before.abortStream
  obtain ⟨final, after, onward⟩ := stopped.play_aborted env next later
  have unsettled : (collectedUntil env client source reported past).loop.outcome? 0 = none :=
    Option.not_isSome_iff_eq_none.mp (Bool.not_eq_true _ ▸ lasts)
  have gets {outcome : Outcome}
      (ended : (abortedThen env client source reported past next).loop.outcome? 0 = some outcome) :
      final = .finished outcome := by
    have here := after.here
    cases final with
    | fresh => cases ended.symm.trans here.2
    | reading pieces read => cases ended.symm.trans here.1.2
    | finished other =>
      cases ended.symm.trans here
      rfl
  -- At the abort the collector has yet to begin, or it waits for a read.
  have waiting (outcome : Outcome)
      (ended : (abortedThen env client source reported past next).loop.outcome? 0 = some outcome) :
      (spot = .fresh ∧ outcome = .failed streamAborted) ∨ ∃ pieces read last,
        spot = .reading pieces read ∧ outcome = outrun pieces last ∧
          (abortedThen env client source reported past next).loop.outcome? read = some last := by
    cases gets ended
    cases onward with
    | stays => cases unsettled.symm.trans before.here
    | reads _ going => cases going
    | refused fresh => exact Or.inl ⟨fresh, rfl⟩
    | ends pieces read last waits finished => exact Or.inr ⟨pieces, read, last, waits, rfl, finished⟩
  refine ⟨fun heeds outcome ended => ?_, fun pieces read known outcome ended => ?_,
    after.settles env⟩
  · rcases waiting outcome ended with ⟨fresh, aborted⟩ | ⟨pieces, read, last, waits, gets, finished⟩
    · subst fresh
      refine iff_of_true aborted fun ⟨pieces, read, _, known, _⟩ => ?_
      cases known.unique before.here
    subst waits
    have known := before.here.1
    cases early : (collectedUntil env client source reported past).loop.outcome? read with
    | some first =>
      -- What was over before the abort is what the collector gets.
      have still := (steady_abortStream _ 0).ended read first early
      cases finished.symm.trans (stopped.play_ended env next later still)
      rw [gets]
      constructor
      · rintro aborted ⟨pieces', read', last', known', finished', outran⟩
        cases known.unique known'
        cases early.symm.trans finished'
        exact outran aborted
      · intro lost
        exact Decidable.not_not.mp fun other => lost ⟨pieces, read, last, known, early, other⟩
    | none =>
      have hit := stopped.play_struck env next later heeds (strikes pieces read rfl early)
      have cancelled : last = .cancelled := by
        rcases hit with runs | cancelled | ⟨activity, unfinished, -⟩
        · cases runs
        · exact Option.some.inj (finished.symm.trans cancelled)
        · cases finished.symm.trans unfinished.2
      subst cancelled
      refine iff_of_true gets fun ⟨pieces', read', last', known', finished', _⟩ => ?_
      cases known.unique known'
      cases early.symm.trans finished'
  · rcases waiting outcome ended with ⟨fresh, -⟩ | ⟨pieces', read', last, waits, gets, finished⟩
    · subst fresh
      cases known.unique before.here
    · subst waits
      cases known.unique before.here.1
      exact ⟨last, finished, gets⟩

/-- The last read finds the end, and the stream is aborted before the collector goes on. -/
def lastRead : List Move :=
  [.turn, .turn, .turn, .turn]

/-- The collector gets the text although the stream was aborted before. -/
theorem text_outruns_abort :
    (collectedUntil ⟨fun _ => [], fun _ => 0⟩ { replies := [] } { actions := [.piece "a"] } true
      lastRead).Outrun ∧
    (abortedThen ⟨fun _ => [], fun _ => 0⟩ { replies := [] } { actions := [.piece "a"] } true
      lastRead [.turn]).loop.outcome? 0 = some (.value (.text "a")) := by
  obtain ⟨decides, -⟩ := aborted_iff_not_outrun ⟨fun _ => [], fun _ => 0⟩ { replies := [] }
    { actions := [.piece "a"] } true lastRead [.turn] (by decide) rfl
  have ended : (abortedThen ⟨fun _ => [], fun _ => 0⟩ { replies := [] } { actions := [.piece "a"] } true
      lastRead [.turn]).loop.outcome? 0 = some (.value (.text "a")) := rfl
  refine ⟨Classical.not_not.mp fun intime => ?_, ended⟩
  have heeds (early late : List Move) (split : [Move.turn] = early ++ late) :
      (abortedThen ⟨fun _ => [], fun _ => 0⟩ { replies := [] } { actions := [.piece "a"] } true
        lastRead early).client.heedless = false := by
    cases early with
    | nil => rfl
    | cons move rest =>
      obtain ⟨rfl, split⟩ := List.cons.inj split
      cases rest with
      | nil => rfl
      | cons => cases split
  cases (decides heeds _ ended).mpr intime

end InlineCompletion.Engine
