import InlineCompletion.Proofs.Engine.Superseded

/-!
The loop runs everyone who is ready in turn, so that nobody who is awake waits for ever. What keeps a
task that was replaced from its end is, in the end, only the closed gate of the client.
-/

namespace InlineCompletion.Engine

variable {engine new old : Engine} {env : Environment} {run : Run} {touched : Nat → Prop}
  {task : Nat}

/-- The client holds back the task, or what the task waits for, at its closed gate. -/
def HeldBack (engine : Engine) (task : Nat) : Prop :=
  engine.client.gateOpen = false ∧ ∃ activity target, engine.loop.Unfinished task activity ∧
    activity.waitingFor = some target ∧ (target ∈ engine.client.gateWaiters ∨
      ∃ other waiter, engine.loop.Unfinished target other ∧ other.waitingFor = some waiter ∧
        waiter ∈ engine.client.gateWaiters)

/-! The line of those who are ready. -/

theorem runTurns_succ (env : Environment) (n : Nat) (engine : Engine) :
    runTurns env (n + 1) engine = runTurns env n (engine.apply env .turn) := by
  have stays (stuck : engine.turn? env = none) (n : Nat) : runTurns env n engine = engine := by
    cases n with
    | zero => rfl
    | succ n =>
      unfold runTurns
      rw [stuck]
  cases found : engine.turn? env with
  | none =>
    have same : engine.apply env .turn = engine := by
      simp [apply, found]
    rw [same, stays found, stays found]
  | some next =>
    have same : engine.apply env .turn = next := by
      simp [apply, found]
    rw [same, runTurns, found]

theorem runTurns_add (env : Environment) (m n : Nat) (engine : Engine) :
    runTurns env (m + n) engine = runTurns env n (runTurns env m engine) := by
  induction m generalizing engine with
  | zero =>
    rw [Nat.zero_add]
    rfl
  | succ m ih => rw [Nat.succ_add, runTurns_succ, ih, ← runTurns_succ]

theorem runTurns_turn (env : Environment) (n : Nat) (engine : Engine) :
    runTurns env (n + 1) engine = (runTurns env n engine).apply env .turn := by
  rw [runTurns_add, runTurns_succ]
  rfl

theorem runTurns_eq_play (env : Environment) (n : Nat) (engine : Engine) :
    runTurns env n engine = engine.play env (List.replicate n .turn) := by
  induction n generalizing engine with
  | zero => rfl
  | succ n ih =>
    rw [runTurns_succ, ih]
    rfl

theorem ready_conclude {step : Step} (task : Nat) :
    step.1.loop.ready <+: (conclude task step).loop.ready := by
  obtain ⟨engine, verdict⟩ := step
  cases verdict with
  | wait target phase =>
    show engine.loop.ready <+: (engine.loop.park task phase target).ready
    unfold Loop.park
    rw [Loop.ready_watch]
    split
    · exact List.prefix_append ..
    · exact List.prefix_refl _
  | done result =>
    rw [loop_conclude_done]
    exact Loop.ready_prefix_settle ..

/-- A turn takes the first from the line, and whoever is new stands at its end. -/
theorem Turned.ready (turned : Turned env engine new) (going : engine.interrupted = none)
    {handle : Handle} {rest : List Handle} (line : engine.loop.ready = handle :: rest)
    (steady : ∀ task activity, handle = .wake task → engine.loop.Unfinished task activity →
      Steady { engine with loop := engine.loop.wakeFirst rest task activity.phase }
        (({ engine with loop := engine.loop.wakeFirst rest task activity.phase } : Engine).resume env
          activity.phase (engine.incoming activity)).1) : rest <+: new.loop.ready := by
  cases turned with
  | idle rests =>
    rcases rests with stopped | empty
    · simp [going] at stopped
    · simp [empty] at line
  | released waiter later _ first =>
    cases line.symm.trans first
    exact Loop.ready_prefix_settle { engine.loop with ready := rest } waiter _
  | woken other later activity awake _ first known same =>
    cases line.symm.trans first
    subst same
    exact (steady other activity rfl known).ready.trans (ready_conclude other)

theorem ready_turn (env : Environment) (coherent : engine.Coherent touched none)
    (going : engine.interrupted = none) {handle : Handle} {rest : List Handle}
    (line : engine.loop.ready = handle :: rest) : rest <+: (engine.apply env .turn).loop.ready := by
  have turned : Turned env engine (engine.apply env .turn) := turned_turn env coherent
  refine turned.ready going line fun task activity same known => ?_
  subst same
  exact (resumed_resume env coherent line known).steady (coherent.wake line known)

/-- The loop runs on its own, and nothing stops it. -/
structure Undisturbed (env : Environment) (touched : Nat → Prop) (engine : Engine) : Prop where
  coherent : ∀ n, (runTurns env n engine).Coherent touched none
  going : ∀ n, (runTurns env n engine).interrupted = none

theorem Undisturbed.later (undisturbed : Undisturbed env touched engine) (m : Nat) :
    Undisturbed env touched (runTurns env m engine) where
  coherent := fun n => runTurns_add env m n engine ▸ undisturbed.coherent (m + n)
  going := fun n => runTurns_add env m n engine ▸ undisturbed.going (m + n)

/-- Whoever stands in the line comes to its head; the induction is on those who stand before. -/
theorem comes_of_prefix {env : Environment} {engine : Engine}
    (moves : ∀ n handle rest, (runTurns env n engine).loop.ready = handle :: rest →
      rest <+: (runTurns env (n + 1) engine).loop.ready) {handle : Handle}
    {before after : List Handle} (line : engine.loop.ready = before ++ handle :: after) :
    ∃ n rest, (runTurns env n engine).loop.ready = handle :: rest := by
  induction before generalizing engine after with
  | nil => exact ⟨0, after, line⟩
  | cons first before ih =>
    obtain ⟨more, next⟩ := moves 0 first (before ++ handle :: after) line
    rw [runTurns_succ] at next
    have line' : (engine.apply env .turn).loop.ready = before ++ handle :: (after ++ more) :=
      next.symm.trans (List.append_assoc ..)
    have later (n : Nat) (handle : Handle) (rest : List Handle)
        (there : (runTurns env n (engine.apply env .turn)).loop.ready = handle :: rest) :
        rest <+: (runTurns env (n + 1) (engine.apply env .turn)).loop.ready := by
      rw [← runTurns_succ] at there ⊢
      exact moves (n + 1) handle rest there
    obtain ⟨n, rest, found⟩ := ih later line'
    exact ⟨n + 1, rest, by rw [runTurns_succ]; exact found⟩

theorem Undisturbed.comes (undisturbed : Undisturbed env touched engine) {handle : Handle}
    {before after : List Handle} (line : engine.loop.ready = before ++ handle :: after) :
    ∃ n rest, (runTurns env n engine).loop.ready = handle :: rest := by
  refine comes_of_prefix (fun n handle rest there => ?_) line
  rw [runTurns_turn]
  exact ready_turn env (undisturbed.coherent n) (undisturbed.going n) there

theorem Undisturbed.head (undisturbed : Undisturbed env touched engine) {handle : Handle}
    (ready : handle ∈ engine.loop.ready) :
    ∃ n rest, (runTurns env n engine).loop.ready = handle :: rest := by
  obtain ⟨before, after, line⟩ := List.append_of_mem ready
  exact undisturbed.comes line

/-- Whoever is awake runs. -/
theorem Undisturbed.woken (undisturbed : Undisturbed env touched engine)
    (ready : .wake task ∈ engine.loop.ready) : ∃ n, (runTurns env n engine).woken? = some task := by
  obtain ⟨n, rest, line⟩ := undisturbed.head ready
  exact ⟨n, by simp [woken?, undisturbed.going n, line]⟩

/-! A turn of a task. -/

theorem turn_of_woken (env : Environment) (coherent : engine.Coherent touched none)
    (woken : engine.woken? = some task) {activity : Activity Phase}
    (known : engine.loop.Unfinished task activity) :
    ∃ rest, engine.loop.ready = .wake task :: rest ∧ engine.apply env .turn = conclude task
      (({ engine with loop := engine.loop.wakeFirst rest task activity.phase } : Engine).resume env
        activity.phase (engine.incoming activity)) := by
  have turned : Turned env engine (engine.apply env .turn) := turned_turn env coherent
  generalize engine.apply env .turn = next at *
  cases turned with
  | idle rests =>
    unfold woken? at woken
    rcases rests with stopped | empty
    · simp [stopped] at woken
    · simp [empty] at woken
  | released waiter rest going first => simp [woken?, going, first] at woken
  | woken other rest activity' awake going first known' same =>
    subst same
    obtain rfl : other = task := by simpa [woken?, going, first] using woken
    cases known.unique known'
    exact ⟨rest, first, rfl⟩

/-- What the turn of a task leaves of it. -/
theorem runner_of_woken (env : Environment) (coherent : engine.Coherent touched none)
    {rest : List Handle} (first : engine.loop.ready = .wake task :: rest) {activity : Activity Phase}
    (known : engine.loop.Unfinished task activity) : ∃ runner,
      (({ engine with loop := engine.loop.wakeFirst rest task activity.phase } : Engine).resume env
        activity.phase (engine.incoming activity)).1.loop.Unfinished task runner := by
  have steady := (resumed_resume env coherent first known).steady (coherent.wake first known)
  have runs := (Loop.unfinished_wakeFirst rest known activity.phase task _).mpr (Or.inl ⟨rfl, rfl⟩)
  obtain ⟨runner, runs', -⟩ := steady.after task _ runs
  exact ⟨runner, runs'⟩

/-- A task that has run and not ended waits for something that is not over. -/
theorem wait_of_woken (env : Environment) (coherent : engine.Coherent touched none)
    (woken : engine.woken? = some task) {activity found : Activity Phase}
    (known : engine.loop.Unfinished task activity)
    (unfinished : (engine.apply env .turn).loop.Unfinished task found) : ∃ rest target,
      engine.loop.ready = .wake task :: rest ∧ found.waitingFor = some target ∧
      (({ engine with loop := engine.loop.wakeFirst rest task activity.phase } : Engine).resume env
        activity.phase (engine.incoming activity)).2 = .wait target found.phase ∧
      (engine.apply env .turn).loop.isPending target = true := by
  obtain ⟨rest, first, same⟩ := turn_of_woken env coherent woken known
  obtain ⟨runner, runs⟩ := runner_of_woken env coherent first known
  obtain ⟨-, accepted⟩ := inOrder_resume env coherent first known
  rw [same] at unfinished ⊢
  refine ⟨rest, ?_⟩
  generalize Engine.resume _ env activity.phase (engine.incoming activity) = step at *
  obtain ⟨last, verdict⟩ := step
  cases verdict with
  | wait target phase =>
    have parked := (Loop.unfinished_park runs phase target task found).mp unfinished
    obtain ⟨-, rfl⟩ := parked.resolve_right fun apart => apart.1 rfl
    refine ⟨target, first, rfl, rfl, ?_⟩
    exact (Loop.isPending_congr (Loop.length_park ..) (Loop.outcome?_park ..)).trans accepted.pending
  | done result =>
    rw [loop_conclude_done] at unfinished
    exact absurd rfl ((Loop.unfinished_finish runs result task found).mp unfinished).1

/-! A task that sleeps. -/

/-- Sooner or later a task that does not end is asleep. -/
theorem Undisturbed.sleeps (undisturbed : Undisturbed env touched engine)
    (lasts : ∀ n, ∃ activity, (runTurns env n engine).loop.Unfinished task activity) :
    ∃ n activity target, (runTurns env n engine).loop.Unfinished task activity ∧
      activity.waitingFor = some target ∧ (runTurns env n engine).loop.isPending target = true := by
  obtain ⟨activity, known⟩ := lasts 0
  rcases (undisturbed.coherent 0).sound.rests task activity known nofun with awake | asleep
  · have ready : .wake task ∈ engine.loop.ready := by
      have counted : engine.loop.ready.count (.wake task) = 1 := awake.1
      exact List.count_pos_iff.mp (counted ▸ Nat.one_pos)
    obtain ⟨n, woken⟩ := undisturbed.woken ready
    obtain ⟨before, known'⟩ := lasts n
    obtain ⟨found, unfinished⟩ := lasts (n + 1)
    have later := runTurns_turn env n engine
    rw [later] at unfinished
    obtain ⟨rest, target, -, waits, -, pending⟩ :=
      wait_of_woken env (undisturbed.coherent n) woken known' unfinished
    exact ⟨n + 1, found, target, later ▸ unfinished, waits, later ▸ pending⟩
  · obtain ⟨-, -, target, waits, pending, -⟩ := asleep
    exact ⟨0, activity, target, known, waits, pending⟩

/-! What a request that was replaced may still wait for. -/

variable {outcome : Outcome} {phase next : Phase} {target stream : Nat}

theorem afterCall_ends (env : Environment) (run : Run) (engine : Engine) (outcome : Outcome) :
    ∃ result, (engine.afterCall env run outcome).2 = .done result := by
  cases outcome with
  | cancelled => exact ⟨_, rfl⟩
  | failed failure =>
    unfold afterCall
    dsimp only
    split
    · exact ⟨_, rfl⟩
    · split <;> exact ⟨_, rfl⟩
  | value v =>
    unfold afterCall
    dsimp only
    split
    · unfold acceptReply
      split
      · exact ⟨_, rfl⟩
      · dsimp only
        split <;> exact ⟨_, rfl⟩
    · exact ⟨_, rfl⟩

theorem afterClosing_ends (env : Environment) (run : Run) (engine : Engine)
    (reading closing : Outcome) :
    ∃ result, (engine.afterClosing env (.completion run reading) closing).2 = .done result := by
  cases closing with
  | value => exact afterCall_ends env run engine reading
  | failed failure => exact afterCall_ends env run engine (.failed failure)
  | cancelled => exact afterCall_ends env run engine .cancelled

/-- A stream that is closed for a request is all that it waits for then. -/
theorem closing_of_deliverFarewell {reading : Outcome} {answer : Option Outcome × Engine}
    (waits : (deliverFarewell env stream (.completion run reading) answer).2 = .wait target next) :
    next = .closing stream (.completion run reading) := by
  obtain ⟨closing, engine⟩ := answer
  cases closing with
  | none =>
    cases waits
    rfl
  | some closing =>
    obtain ⟨result, ends⟩ := afterClosing_ends env run engine reading closing
    cases waits.symm.trans ends

theorem closing_of_closeFor {reading : Outcome}
    (waits : (engine.closeFor env stream (.completion run reading)).2 = .wait target next) :
    next = .closing stream (.completion run reading) := by
  unfold closeFor at waits
  split at waits
  · exact closing_of_deliverFarewell waits
  · next failure new same =>
    obtain ⟨result, ends⟩ := afterClosing_ends env run new reading (.failed failure)
    cases waits.symm.trans ends

/-- No stream is read on that was aborted. -/
theorem closing_of_resumeReading {pieces : List Text} {found : Stream}
    (known : engine.streams[stream]? = some found) (aborted : found.aborted = true)
    (waits : (engine.resumeReading env stream (.completion run pieces) outcome).2 =
      .wait target next) : ∃ closer, next = .closing stream closer := by
  have free := stream_modifyStream engine stream (fun s => { s with pending := none }) known
  unfold resumeReading at waits
  cases read : engine.endRead stream outcome with
  | mk seen new =>
    simp only [read] at waits
    cases seen with
    | cancelled | failed failure => exact ⟨_, closing_of_closeFor waits⟩
    | value v =>
      cases v with
      | nothing | truth b | drained => exact ⟨_, closing_of_closeFor waits⟩
      | text t =>
        have same : engine.modifyStream stream (fun s => { s with pending := none }) = new := by
          unfold endRead at read
          split at read
          · split at read <;> cases read
          · cases read
          · cases read
          · cases read
            rfl
        rw [same] at free
        unfold readFor beginRead at waits
        simp only [free, aborted, if_true] at waits
        exact ⟨_, closing_of_closeFor waits⟩

theorem afterDebounce_ends (stale : engine.isLive run = false) :
    ∃ result, (engine.afterDebounce env run outcome).2 = .done result := by
  unfold afterDebounce
  split
  · next live _ => cases live.symm.trans stale
  · exact ⟨_, rfl⟩
  · exact ⟨_, rfl⟩

/-- Only a debounce goes on to another wait than that for the end of a closed stream. -/
theorem wait_of_stale (works : phase.run? = some run) (stale : engine.isLive run = false)
    (aborted : ∀ stream consumer, phase = .reading stream consumer →
      ∃ found, engine.streams[stream]? = some found ∧ found.aborted = true)
    (waits : (engine.resume env phase outcome).2 = .wait target next) :
    (∃ stream closer, next = .closing stream closer) ∨ ∃ watch owner timedOut,
      phase = .debouncing watch owner ∧ next = .unwinding watch timedOut owner := by
  unfold Phase.run? at works
  split at works
  · next watch owner =>
    cases works
    refine Or.inr ⟨watch, some run, outcome ≠ .cancelled, rfl, ?_⟩
    have waits : (deliver env (some run) (engine.resumeDebounce watch (some run) outcome)).2 =
      .wait target next := waits
    unfold resumeDebounce at waits
    split at waits
    · obtain ⟨result, ends⟩ := afterDebounce_ends stale
      cases waits.symm.trans ends
    · cases waits
      rfl
  · next watch timedOut owner =>
    cases works
    have waits : (deliver env (some run)
      (engine.resumeUnwinding watch timedOut outcome)).2 = .wait target next := waits
    unfold resumeUnwinding at waits
    split at waits
    all_goals
      obtain ⟨result, ends⟩ := afterDebounce_ends stale
      cases waits.symm.trans ends
  · next call owner =>
    cases works
    obtain ⟨result, ends⟩ := afterCall_ends env run (engine.endCall call outcome).2
      (engine.endCall call outcome).1
    cases waits.symm.trans ends
  · next stream run' pieces =>
    cases works
    obtain ⟨found, known, gone⟩ := aborted stream _ rfl
    obtain ⟨closer, same⟩ := closing_of_resumeReading known gone waits
    exact Or.inl ⟨stream, closer, same⟩
  · next stream run' reading =>
    cases works
    exact Or.inl ⟨stream, _, closing_of_deliverFarewell waits⟩
  · cases works

/-! What a completion waits for while it sleeps. -/

variable {activity : Activity Phase}

theorem heldBack_of_gate (coherent : engine.Coherent touched none)
    (unfinished : engine.loop.Unfinished task activity) (waits : activity.waitingFor = some target)
    (held : target ∈ engine.client.gateWaiters ∨ ∃ other waiter,
      engine.loop.Unfinished target other ∧ other.waitingFor = some waiter ∧
        waiter ∈ engine.client.gateWaiters) : HeldBack engine task := by
  refine ⟨?_, activity, target, unfinished, waits, held⟩
  cases shut : engine.client.gateOpen with
  | false => rfl
  | true =>
    have empty := coherent.open_gate shut
    rcases held with here | ⟨_, waiter, -, -, there⟩
    · simp [empty] at here
    · simp [empty] at there

/-- Who works for the client waits at its gate. -/
theorem Does.held {errand : Errand} (coherent : engine.Coherent touched none)
    (does : engine.Does errand task) (serves : ∀ request, errand ≠ .watch request)
    (unfinished : engine.loop.Unfinished task activity) (waits : activity.waitingFor = some target)
    (pending : engine.loop.isPending target = true) : target ∈ engine.client.gateWaiters := by
  have doing := does.2 activity unfinished
  have gate (held : engine.Held activity) : target ∈ engine.client.gateWaiters := by
    obtain ⟨waiter, waits', -, stands⟩ := held
    cases waits.symm.trans waits'
    exact stands pending
  have apart {phase : Phase} (same : activity.phase = phase) : (∃ job, phase = .start job) ∨
      (∃ reply, phase = .answering reply) ∨ ∃ stream, phase = .pulling stream := by
    cases errand with
    | watch request => exact absurd rfl (serves request)
    | answer =>
      rcases doing with ⟨call, start⟩ | ⟨reply, answers⟩
      · exact Or.inl ⟨_, same.symm.trans start⟩
      · exact Or.inr (Or.inl ⟨_, same.symm.trans answers⟩)
    | pull stream =>
      rcases doing with start | pulls
      · exact Or.inl ⟨_, same.symm.trans start⟩
      · exact Or.inr (Or.inr ⟨_, same.symm.trans pulls⟩)
  cases coherent.fits task activity unfinished nofun with
  | start job phase internal idle => cases waits.symm.trans idle
  | answering reply phase held => exact gate held
  | pulling stream phase held => exact gate held
  | _ => simp_all

/-- A watch waits for the cancellation of its request. -/
theorem Does.noticed {request : Nat} (coherent : engine.Coherent touched none)
    (does : engine.Does (.watch request) task) (unfinished : engine.loop.Unfinished task activity)
    (waits : activity.waitingFor = some target) (pending : engine.loop.isPending target = true) :
    ∃ found, engine.requests[request]? = some found ∧ target ∈ found.waiters := by
  rcases does.2 activity unfinished with start | ⟨-, noticed⟩
  · cases waits.symm.trans ((coherent.fits task activity unfinished nofun).of_start start)
  · exact noticed target waits pending

/-- The phase is that of a debounce with this watch. -/
def Guards (run : Run) (watch : Nat) (phase : Phase) : Prop :=
  phase = .debouncing watch (some run) ∨ ∃ timedOut, phase = .unwinding watch timedOut (some run)

theorem Fits.vigil {watch : Nat} (fits : engine.Fits touched none task activity)
    (guards : Guards run watch activity.phase) : engine.Vigil run watch activity := by
  rcases guards with phase | ⟨timedOut, phase⟩
  · obtain ⟨run', same, vigil, -⟩ := fits.of_debouncing phase
    cases same
    exact vigil
  · obtain ⟨run', same, vigil, -⟩ := fits.of_unwinding phase
    cases same
    exact vigil

/-- A completion waits for its watch, for one who works for the client, or at the gate. -/
theorem Fits.waits (fits : engine.Fits touched none task activity)
    (works : activity.phase.run? = some run) : (∃ watch, Guards run watch activity.phase) ∨
      (∃ errand target, activity.waitingFor = some target ∧ engine.Does errand target ∧
        ∀ request, errand ≠ .watch request) ∨ engine.Held activity := by
  cases fits with
  | debouncing watch run' phase =>
    rw [phase] at works
    cases works
    exact Or.inl ⟨watch, Or.inl phase⟩
  | unwinding watch timedOut run' phase =>
    rw [phase] at works
    cases works
    exact Or.inl ⟨watch, Or.inr ⟨timedOut, phase⟩⟩
  | calling call run' phase waits does => exact Or.inr (Or.inl ⟨_, call, waits, does, nofun⟩)
  | reading stream read run' pieces found phase waits does =>
    exact Or.inr (Or.inl ⟨_, read, waits, does, nofun⟩)
  | closing stream run' reading found phase held => exact Or.inr (Or.inr held)
  | start job phase internal idle =>
    rw [phase] at works
    cases works
  | watching phase | answering reply phase | pulling stream phase =>
    rw [phase] at works
    cases works

/-! Nothing but the gate holds back a completion whose request was cancelled. -/

/-- A task that never runs sleeps on. -/
theorem Undisturbed.stays (undisturbed : Undisturbed env touched engine)
    (known : engine.loop.Unfinished task activity)
    (never : ∀ n, (runTurns env n engine).woken? ≠ some task) : ∃ target, ∀ n,
      (runTurns env n engine).loop.isPending target = true ∧ ∃ found,
        (runTurns env n engine).loop.Unfinished task found ∧ found.phase = activity.phase ∧
          found.waitingFor = some target := by
  have same (n : Nat) : ∃ found, (runTurns env n engine).loop.Unfinished task found ∧
      found.phase = activity.phase ∧ found.waitingFor = activity.waitingFor := by
    induction n with
    | zero => exact ⟨activity, known, rfl, rfl⟩
    | succ n ih =>
      obtain ⟨found, unfinished, phase, waiting⟩ := ih
      have turned := turned_turn env (undisturbed.coherent n)
      obtain ⟨next, unfinished', phase', waiting'⟩ :=
        turned.unfinished (undisturbed.coherent n) unfinished (never n)
      rw [runTurns_turn]
      exact ⟨next, unfinished', phase'.trans phase, waiting'.trans waiting⟩
  have sleeps (n : Nat) (found : Activity Phase)
      (unfinished : (runTurns env n engine).loop.Unfinished task found) :
      ∃ target, found.waitingFor = some target ∧
        (runTurns env n engine).loop.isPending target = true := by
    rcases (undisturbed.coherent n).sound.rests task found unfinished nofun with awake | asleep
    · have ready : .wake task ∈ (runTurns env n engine).loop.ready :=
        List.count_pos_iff.mp (awake.1 ▸ Nat.one_pos)
      obtain ⟨m, woken⟩ := (undisturbed.later n).woken ready
      rw [← runTurns_add] at woken
      exact absurd woken (never (n + m))
    · obtain ⟨-, -, target, waits, pending, -⟩ := asleep
      exact ⟨target, waits, pending⟩
  obtain ⟨target, waits, -⟩ := sleeps 0 activity known
  refine ⟨target, fun n => ?_⟩
  obtain ⟨found, unfinished, phase, waiting⟩ := same n
  obtain ⟨target', waits', pending⟩ := sleeps n found unfinished
  cases (waits'.symm.trans waiting).trans waits
  exact ⟨pending, found, unfinished, phase, waits'⟩

/-- Whoever is not held back runs, if no watch keeps it from that. -/
theorem Undisturbed.wakes (undisturbed : Undisturbed env touched engine)
    (known : engine.loop.Unfinished task activity) (works : activity.phase.run? = some run)
    (unguarded : (∀ n, (runTurns env n engine).woken? ≠ some task) →
      ∀ watch, ¬Guards run watch activity.phase)
    (free : ∀ n, ¬HeldBack (runTurns env n engine) task) :
    ∃ n, (runTurns env n engine).woken? = some task := by
  refine Classical.byContradiction fun unwoken => ?_
  have never : ∀ n, (runTurns env n engine).woken? ≠ some task := not_exists.mp unwoken
  obtain ⟨target, stays⟩ := undisturbed.stays known never
  have serves (n : Nat) : ∃ errand, (runTurns env n engine).Does errand target ∧
      ∀ request, errand ≠ .watch request := by
    obtain ⟨pending, found, unfinished, phase, waiting⟩ := stays n
    have fits := (undisturbed.coherent n).fits task found unfinished nofun
    rcases fits.waits (phase ▸ works) with ⟨watch, guards⟩ | ⟨errand, target', waits, serves⟩ | held
    · exact absurd (phase ▸ guards) (unguarded never watch)
    · cases waiting.symm.trans waits
      exact ⟨errand, serves⟩
    · obtain ⟨waiter, waits, -, stands⟩ := held
      cases waiting.symm.trans waits
      exact absurd (heldBack_of_gate (undisturbed.coherent n) unfinished waiting
        (Or.inl (stands pending))) (free n)
  have lasts (n : Nat) : ∃ other, (runTurns env n engine).loop.Unfinished target other := by
    obtain ⟨errand, ⟨⟨other, known'⟩, -⟩, -⟩ := serves n
    exact ⟨other, known', ((Loop.isPending_iff _ target).mp (stays n).1).2⟩
  obtain ⟨n, other, waiter, unfinished', waits, pending⟩ := undisturbed.sleeps lasts
  obtain ⟨errand, does, apart⟩ := serves n
  obtain ⟨-, found, unfinished, phase, waiting⟩ := stays n
  have held := does.held (undisturbed.coherent n) apart unfinished' waits pending
  exact free n (heldBack_of_gate (undisturbed.coherent n) unfinished waiting
    (Or.inr ⟨other, waiter, unfinished', waits, held⟩))

/-- A completion that never runs guards a watch that sleeps at some time. -/
theorem Undisturbed.watch_sleeps (undisturbed : Undisturbed env touched engine)
    (known : engine.loop.Unfinished task activity)
    (never : ∀ n, (runTurns env n engine).woken? ≠ some task) {watch : Nat}
    (guards : Guards run watch activity.phase) : ∃ n found other target,
      (runTurns env n engine).loop.Unfinished task found ∧ found.phase = activity.phase ∧
      (runTurns env n engine).loop.Unfinished watch other ∧ other.waitingFor = some target ∧
      (runTurns env n engine).loop.isPending target = true := by
  obtain ⟨target, stays⟩ := undisturbed.stays known never
  have unready (n : Nat) : .release target ∉ (runTurns env n engine).loop.ready := by
    intro ready
    obtain ⟨m, rest, first⟩ := (undisturbed.later n).head ready
    rw [← runTurns_add] at first
    have pending := (stays (n + m + 1)).1
    rw [runTurns_turn] at pending
    have turned : Turned env _ ((runTurns env (n + m) engine).apply env .turn) :=
      turned_turn env (undisturbed.coherent (n + m))
    have sleeping := ((Loop.isPending_iff _ target).mp pending).2
    have waits := (stays (n + m)).1
    generalize (runTurns env (n + m) engine).apply env .turn = next at *
    cases turned with
    | idle rests =>
      rcases rests with stopped | empty
      · simp [undisturbed.going (n + m)] at stopped
      · simp [empty] at first
    | released waiter later _ first' =>
      cases first.symm.trans first'
      have settled := Loop.outcome?_settle { (runTurns env (n + m) engine).loop with ready := rest }
        target target (.value .nothing)
      have settled := settled.trans (if_pos ⟨rfl, waits⟩)
      cases settled.symm.trans sleeping
    | woken other later _ _ _ first' => cases first.symm.trans first'
  have lasts (n : Nat) : ∃ other, (runTurns env n engine).loop.Unfinished watch other := by
    obtain ⟨pending, found, unfinished, phase, waiting⟩ := stays n
    have fits := (undisturbed.coherent n).fits task found unfinished nofun
    obtain ⟨waiter, waits, -, noted, -, ⟨other, known'⟩, -⟩ := fits.vigil (phase ▸ guards)
    cases waits.symm.trans waiting
    rcases noted with watched | ready | ended
    · refine ⟨other, known', Option.not_isSome_iff_eq_none.mp fun ended => ?_⟩
      simp [(undisturbed.coherent n).sound.settled watch ended] at watched
    · exact absurd ready (unready n)
    · exact absurd ended (Loop.not_done_of_pending pending)
  obtain ⟨n, other, target', unfinished', waits, pending⟩ := undisturbed.sleeps lasts
  obtain ⟨-, found, unfinished, phase, -⟩ := stays n
  exact ⟨n, found, other, target', unfinished, phase, unfinished', waits, pending⟩

/-- A completion whose request was cancelled goes on for ever, and the gate lets it. -/
structure Lingers (env : Environment) (touched : Nat → Prop) (engine : Engine) (task : Nat)
    (run : Run) : Prop extends Undisturbed env touched engine where
  works : ∀ n, (runTurns env n engine).runOf task = some run
  gone : ∀ n, ∃ generation, (runTurns env n engine).markOf run.request = some (true, generation)
  free : ∀ n, ¬HeldBack (runTurns env n engine) task

theorem Lingers.later (lingers : Lingers env touched engine task run) (m : Nat) :
    Lingers env touched (runTurns env m engine) task run where
  toUndisturbed := lingers.toUndisturbed.later m
  works := fun n => runTurns_add env m n engine ▸ lingers.works (m + n)
  gone := fun n => runTurns_add env m n engine ▸ lingers.gone (m + n)
  free := fun n => runTurns_add env m n engine ▸ lingers.free (m + n)

/-- The end of the watch of a cancelled request is never far. -/
theorem Lingers.unguarded (lingers : Lingers env touched engine task run)
    (known : engine.loop.Unfinished task activity)
    (never : ∀ n, (runTurns env n engine).woken? ≠ some task) (watch : Nat) :
    ¬Guards run watch activity.phase := by
  intro guards
  obtain ⟨n, found, other, target, unfinished, phase, unfinished', waits, pending⟩ :=
    lingers.toUndisturbed.watch_sleeps known never guards
  have vigil := ((lingers.coherent n).fits task found unfinished nofun).vigil (phase ▸ guards)
  obtain ⟨request, known', noticed⟩ :=
    vigil.does.noticed (lingers.coherent n) unfinished' waits pending
  obtain ⟨generation, gone⟩ := lingers.gone n
  obtain ⟨request', known'', empty, -⟩ := (lingers.coherent n).halted gone
  cases known'.symm.trans known''
  simp [empty] at noticed

theorem Lingers.woken (lingers : Lingers env touched engine task run) :
    ∃ n, (runTurns env n engine).woken? = some task := by
  obtain ⟨activity, known, works⟩ := runOf_eq_some_iff.mp (lingers.works 0)
  exact lingers.toUndisturbed.wakes known works (lingers.unguarded known) lingers.free

/-- A turn of a completion whose request was cancelled ends it, or leaves it waiting at the gate or
for the watch that it gives up. -/
theorem stale_turn (env : Environment) (coherent : engine.Coherent touched none)
    (coherent' : (engine.apply env .turn).Coherent touched none)
    {generation : Int} (gone : engine.markOf run.request = some (true, generation))
    (woken : engine.woken? = some task) (known : engine.loop.Unfinished task activity)
    (works : activity.phase.run? = some run) {found : Activity Phase}
    (unfinished : (engine.apply env .turn).loop.Unfinished task found) :
    HeldBack (engine.apply env .turn) task ∨ ∃ watch timedOut owner,
      activity.phase = .debouncing watch owner ∧ found.phase = .unwinding watch timedOut owner := by
  have unread (stream : Nat) (consumer : Consumer) (phase : activity.phase = .reading stream consumer) :
      ∃ found, engine.streams[stream]? = some found ∧ found.aborted = true := by
    obtain ⟨run', pieces, -, -, rfl, -, -, ⟨request, asked, reads⟩, -⟩ :=
      (coherent.fits task activity known nofun).of_reading phase
    rw [phase] at works
    cases works
    obtain ⟨request', asked', halted⟩ := coherent.halted gone
    cases asked.symm.trans asked'
    exact halted.2.1 stream reads
  obtain ⟨rest, target, -, waits, comes, pending⟩ := wait_of_woken env coherent woken known unfinished
  have stale : ({ engine with loop := engine.loop.wakeFirst rest task activity.phase } : Engine).isLive
      run = false := isLive_eq_false gone
  rcases wait_of_stale works stale unread comes with
    ⟨stream, closer, closes⟩ | ⟨watch, owner, timedOut, unwinds⟩
  · left
    obtain ⟨-, -, -, -, ⟨waiter, waits', -, stands⟩, -⟩ :=
      (coherent'.fits task found unfinished nofun).of_closing closes
    cases waits.symm.trans waits'
    exact heldBack_of_gate coherent' unfinished waits (Or.inl (stands pending))
  · exact Or.inr ⟨watch, timedOut, owner, unwinds⟩

/-- A completion that lingers only gives up its watch. -/
theorem Lingers.unwinds (lingers : Lingers env touched engine task run)
    (woken : engine.woken? = some task) : ∃ activity found watch timedOut owner,
      engine.loop.Unfinished task activity ∧
        (engine.apply env .turn).loop.Unfinished task found ∧
        activity.phase = .debouncing watch owner ∧ found.phase = .unwinding watch timedOut owner := by
  have coherent := lingers.coherent 1
  have free := lingers.free 1
  have lasts := lingers.works 1
  rw [runTurns_succ] at coherent free lasts
  obtain ⟨activity, known, works⟩ := runOf_eq_some_iff.mp (lingers.works 0)
  obtain ⟨found, unfinished, -⟩ := runOf_eq_some_iff.mp lasts
  obtain ⟨generation, gone⟩ := lingers.gone 0
  obtain ⟨watch, timedOut, owner, phases⟩ :=
    (stale_turn env (lingers.coherent 0) coherent gone woken known works unfinished).resolve_left free
  exact ⟨activity, found, watch, timedOut, owner, known, unfinished, phases⟩

/-- A completion whose request was cancelled ends, unless the loop stops or the gate holds it. -/
theorem not_lingers : ¬Lingers env touched engine task run := by
  intro lingers
  obtain ⟨m, woken⟩ := lingers.woken
  obtain ⟨-, first, watch, timedOut, owner, -, unfinished, -, unwinds⟩ :=
    (lingers.later m).unwinds woken
  -- A watch is given up once; from then on the completion never runs.
  have given (n : Nat) : ∃ found, (runTurns env (m + 1 + n) engine).loop.Unfinished task found ∧
      found.phase = .unwinding watch timedOut owner ∧
      (runTurns env (m + 1 + n) engine).woken? ≠ some task := by
    have unwoken {n : Nat} {found : Activity Phase}
        (known : (runTurns env n engine).loop.Unfinished task found)
        (phase : found.phase = .unwinding watch timedOut owner) :
        (runTurns env n engine).woken? ≠ some task := by
      intro woken
      obtain ⟨activity, _, _, _, _, known', -, debounces, -⟩ := (lingers.later n).unwinds woken
      cases known.unique known'
      cases phase.symm.trans debounces
    induction n with
    | zero =>
      have later : (runTurns env (m + 1) engine).loop.Unfinished task first := by
        rw [runTurns_turn]
        exact unfinished
      exact ⟨first, later, unwinds, unwoken later unwinds⟩
    | succ n ih =>
      obtain ⟨found, known, phase, sleeps⟩ := ih
      have turned := turned_turn env (lingers.coherent (m + 1 + n))
      obtain ⟨next, known', phase', -⟩ :=
        turned.unfinished (lingers.coherent (m + 1 + n)) known sleeps
      have later : (runTurns env (m + 1 + (n + 1)) engine).loop.Unfinished task next := by
        rw [← Nat.add_assoc, runTurns_turn]
        exact known'
      exact ⟨next, later, phase'.trans phase, unwoken later (phase'.trans phase)⟩
  obtain ⟨n, woken'⟩ := (lingers.later (m + 1)).woken
  obtain ⟨-, -, -, sleeps⟩ := given n
  rw [← runTurns_add] at woken'
  exact sleeps woken'

end InlineCompletion.Engine
