import InlineCompletion.Proofs.Engine.Accounts

/-!
The use of a client, by completions and by others who make calls and read streams at will, stop what
they like and cancel whatever task they like. After each step the books of the client balance.
-/

namespace InlineCompletion

/-- What the users of a client do, in any order. What one does who is told of a call as soon as that is
scheduled comes right after the turn in which the call begins. -/
inductive Use where
  | move (move : Move)
  /-- A task is made that does the job: a single call, a read of a stream, the end of one. -/
  | begin (job : Job)
  | openStream (call : Call)
  | cancelCall (call : Nat)
  | abortStream (stream : Nat)
  /-- Whatever the task does. -/
  | cancelTask (task : Nat)

namespace Engine

variable {engine old new : Engine} {env : Environment} {hit : Belonging → Prop} {task : Nat}

def use (env : Environment) (engine : Engine) : Use → Engine
  | .move move => engine.apply env move
  | .begin job => (engine.spawn job).2
  | .openStream call => (engine.openStream call).2
  | .cancelCall call => engine.cancelCall call
  | .abortStream stream => engine.abortStream stream
  | .cancelTask task => engine.cancelTask task

/-- What the use of a client has come to. -/
abbrev used (env : Environment) (client : Client) (seats : List (Settings × Cache Float))
    (uses : List Use) : Engine :=
  uses.foldl (use env) (opening client seats)

/-! What is closed stays closed. -/

/-- Streams last, and those that are closed stay so. -/
def Shutting (old new : Engine) : Prop :=
  ∀ (id : Nat) (stream : Stream), old.streams[id]? = some stream →
    ∃ found, new.streams[id]? = some found ∧ (stream.closed = true → found.closed = true)

namespace Shutting

variable {last : Engine}

theorem of_same (same : new.streams = old.streams) : Shutting old new :=
  fun _ stream known => ⟨stream, same ▸ known, fun closed => closed⟩

theorem trans (first : Shutting old new) (second : Shutting new last) : Shutting old last := by
  intro id stream known
  obtain ⟨found, known', closed⟩ := first id stream known
  obtain ⟨found', known'', closed'⟩ := second id found known'
  exact ⟨found', known'', fun shut => closed' (closed shut)⟩

theorem openStream (engine : Engine) (call : Call) : Shutting engine (engine.openStream call).2 := by
  intro id stream known
  refine ⟨stream, ?_, fun closed => closed⟩
  exact (List.getElem?_append_left (List.getElem?_eq_some_iff.mp known).1).trans known

end Shutting

theorem Tallied.shutting (tallied : Tallied hit old new) : Shutting old new := by
  intro id stream known
  obtain ⟨found, known', closed, -⟩ := tallied.streams id stream known
  exact ⟨found, known', closed⟩

theorem Accounted.shutting {reads : Option Nat} {step : Step} (accounted : Accounted hit reads old step) :
    Shutting old step.1 := by
  cases accounted with
  | minds minded => exact minded.tallied.shutting
  | opens middle request call first second =>
    have opened : Shutting middle (middle.granted request call) :=
      (Shutting.openStream middle call).trans (.of_same rfl)
    exact (first.shutting.trans opened).trans second.tallied.shutting
  | calls middle call owner first second =>
    have begun : Shutting middle (middle.beginCall call).2 := .of_same rfl
    exact (first.shutting.trans begun).trans second.shutting

theorem shutting_turn (env : Environment) (engine : Engine) :
    Shutting engine ((engine.turn? env).getD engine) := by
  have runs (engine : Engine) (task : Nat) : Shutting engine (engine.runTask env task) := by
    rcases runTask_cases env engine task with same | ⟨activity, -, ran⟩
    · exact .of_same (by rw [same])
    · rw [ran]
      let awake := engine.withLoop (·.setActivity task { phase := activity.phase })
      have dropped : (awake.dropped activity.phase).streams = engine.streams := by
        unfold Engine.dropped
        split <;> rfl
      have went := (accounted_resume env awake activity.phase (engine.incoming activity)).shutting
      exact ((Shutting.of_same dropped).trans went).trans (.of_same (conclude_client task _).1)
  unfold turn?
  split
  · exact .of_same rfl
  · cases first : engine.loop.ready with
    | nil =>
      simp only [Loop.next?, first]
      exact .of_same rfl
    | cons handle rest =>
      simp only [Loop.next?, first, Option.map_some, Option.getD_some]
      have popped : Shutting engine { engine with loop := { engine.loop with ready := rest } } :=
        .of_same rfl
      cases handle with
      | wake task => exact popped.trans (runs _ task)
      | release waiter => exact popped.trans (.of_same rfl)

/-! Whatever is done with a client. -/

theorem Accounts.of_tallied (accounts : engine.Accounts engine.dutyOf) (tallied : Tallied hit engine new) :
    new.Accounts new.dutyOf := by
  rw [(tallied.steady accounts.released).dutyOf]
  exact accounts.tallied tallied

/-- A task that has yet to start changes nothing. -/
theorem Accounts.begin (accounts : engine.Accounts engine.dutyOf) (job : Job) :
    (engine.spawn job).2.Accounts (engine.spawn job).2.dutyOf := by
  have bare (id : Nat) : engine.loop.Bare id → (engine.loop.spawn (.start job)).2.Bare id :=
    (Loop.bare_spawn (Phase.start job) id).mpr
  have released : (engine.spawn job).2.Released := accounts.released.of_bare
    (accounts.released.lone.spawn (.start job)) bare (fun _ => Or.inl)
    fun id request found waiter member => Or.inr ⟨id, request, found, member⟩
  have length : engine.loop.futures.length ≤ (engine.loop.spawn (.start job)).2.futures.length := by simp
  refine (accounts.of_same released length rfl rfl rfl).congr fun task => ?_
  have spawns (activity : Activity Phase) : (engine.loop.spawn (.start job)).2.Unfinished task activity ↔
      _ := Loop.unfinished_spawn (Phase.start job) task activity
  unfold Engine.dutyOf
  cases before : engine.phaseOf task with
  | some phase =>
    obtain ⟨activity, known, rfl⟩ := phaseOf_eq_some_iff.mp before
    rw [phaseOf_eq_some_iff.mpr ⟨activity, (spawns activity).mpr (Or.inr known), rfl⟩]
  | none =>
    cases after : (engine.spawn job).2.phaseOf task with
    | none => rfl
    | some phase =>
      obtain ⟨activity, known, rfl⟩ := phaseOf_eq_some_iff.mp after
      rcases (spawns activity).mp known with ⟨-, rfl⟩ | known
      · rfl
      · exact absurd known (phaseOf_eq_none_iff.mp before activity)

/-- What is stopped from outside. -/
def stops (engine : Engine) : Move → Belonging → Prop
  | .abort => fun _ => True
  | .cancel orchestrator => engine.workOf orchestrator
  | _ => fun _ => False

/-- While the clock and its timers stand, every move but a turn and a new task stays off the books or
stops what there is. -/
theorem tallied_apply (env : Environment) (engine : Engine) (move : Move) (waits : move ≠ .turn)
    (timeless : move.timeless = true)
    (asks : ∀ orchestrator document position, move ≠ .request orchestrator document position) :
    Tallied (engine.stops move) engine (engine.apply env move) := by
  have cleared (orchestrator : Nat) : Alike engine (engine.clearCache orchestrator) :=
    alike_modifyOrchestrator ..
  cases move with
  | turn => exact absurd rfl waits
  | request orchestrator document position => exact absurd rfl (asks orchestrator document position)
  | fireTimers | pass => cases timeless
  | cancel orchestrator => exact tallied_cancelCurrent engine orchestrator
  | selectModel orchestrator model =>
    exact .of_alike ((alike_modifyOrchestrator ..).trans (alike_modifyOrchestrator ..))
  | clearCache orchestrator notify =>
    unfold apply clearCacheFor
    dsimp only
    split
    · exact .of_alike ((cleared orchestrator).trans (alike_emit ..))
    · exact .of_alike (cleared orchestrator)
  | cancelTask task =>
    unfold apply cancelCompletion
    dsimp only
    split
    · exact tallied_cancel engine task
    · exact .refl engine
  | abort => exact tallied_abortClient engine
  | openGate => exact tallied_openGate engine
  | closeGate =>
    exact .of_alike ⟨rfl, rfl, nofun, rfl, rfl, rfl, rfl, rfl, fun _ member => member⟩
  | proceed waiter => exact tallied_proceed engine waiter
  | script replies failure ignoresCancel heedless =>
    exact .of_alike ⟨rfl, rfl, fun known => known, rfl, rfl, rfl, rfl, rfl, fun _ member => member⟩
  | rescript stream actions farewell closable =>
    exact tallied_modifySource engine stream fun source => { source with actions, farewell, closable }

/-- One use of the client keeps its books in order. -/
theorem Accounts.step (env : Environment) (accounts : engine.Accounts engine.dutyOf) (step : Use) :
    (engine.use env step).Accounts (engine.use env step).dutyOf ∧
      Shutting engine (engine.use env step) := by
  have plain {hit : Belonging → Prop} {new : Engine} (tallied : Tallied hit engine new) :
      new.Accounts new.dutyOf ∧ Shutting engine new := ⟨accounts.of_tallied tallied, tallied.shutting⟩
  cases step with
  | move move =>
    by_cases turns : move = .turn
    · subst turns
      exact ⟨accounts.turn env, shutting_turn env engine⟩
    by_cases asks : ∃ orchestrator document position, move = .request orchestrator document position
    · obtain ⟨orchestrator, document, position, rfl⟩ := asks
      exact ⟨accounts.begin _, .of_same rfl⟩
    have lone := accounts.released.lone
    cases timeless : move.timeless with
    | true =>
      exact plain (tallied_apply env engine move turns timeless
        fun orchestrator document position same => asks ⟨orchestrator, document, position, same⟩)
    | false =>
      cases move with
      | pass nanoseconds =>
        have passed := Loop.grown_advance engine.loop nanoseconds
        exact ⟨accounts.withLoop (f := (·.advance nanoseconds)) (steady_grown passed) (lone.grown passed)
          fun _ => passed.bare, .of_same rfl⟩
      | fireTimers =>
        have fired := Loop.grown_fireTimers lone.timed
        exact ⟨accounts.withLoop (f := (·.fireTimers)) (steady_grown fired) (lone.grown fired)
          fun _ => fired.bare, .of_same rfl⟩
      | _ => cases timeless
  | begin job => exact ⟨accounts.begin job, .of_same rfl⟩
  | openStream call => exact ⟨accounts.openStream call, .openStream engine call⟩
  | cancelCall call => exact plain (tallied_cancelCall engine call)
  | abortStream stream => exact plain (tallied_abortStream engine stream)
  | cancelTask task =>
    have tallied : Tallied (fun _ => False) engine (engine.cancelTask task) := tallied_cancel engine task
    exact plain tallied

theorem accounts_opening (client : Client) (seats : List (Settings × Cache Float)) :
    (opening client seats).Accounts (opening client seats).dutyOf where
  released := ⟨⟨nofun, nofun, nofun⟩, nofun, nofun⟩
  booked := ⟨nofun, nofun, nofun, nofun, List.nodup_nil, fun _ ⟨_, _, known, _⟩ => nomatch known⟩
  once := List.nodup_nil
  aborted := nofun
  called := fun _ => ⟨nofun, fun ⟨_, held⟩ => nomatch held⟩
  alone := nofun
  inside := nofun
  minded := fun _ ⟨_, _, known, _⟩ => nomatch known

theorem Accounts.steps (env : Environment) (accounts : engine.Accounts engine.dutyOf) (uses : List Use) :
    (uses.foldl (use env) engine).Accounts (uses.foldl (use env) engine).dutyOf ∧
      Shutting engine (uses.foldl (use env) engine) := by
  induction uses generalizing engine with
  | nil => exact ⟨accounts, .of_same rfl⟩
  | cons step rest ih =>
    obtain ⟨after, shutting⟩ := accounts.step env step
    obtain ⟨last, shutting'⟩ := ih after
    exact ⟨last, shutting.trans shutting'⟩

theorem accounts_play (env : Environment) (client : Client) (seats : List (Settings × Cache Float))
    (moves : List Move) :
    (reached env client seats moves).Accounts (reached env client seats moves).dutyOf := by
  have used := ((accounts_opening client seats).steps env (moves.map .move)).1
  rw [List.foldl_map] at used
  exact used

theorem dutyOf_eq_call_iff {call : Nat} : engine.dutyOf task = some (.call call) ↔
    ∃ owner, engine.phaseOf task = some (.calling call owner) := by
  unfold dutyOf
  rw [Option.bind_eq_some_iff]
  simp only [Phase.duty?_eq_call_iff]
  constructor
  · intro given
    obtain ⟨phase, known, calls⟩ := given
    cases phase with
    | calling other owner =>
      cases calls
      exact ⟨owner, known⟩
    | _ => cases calls
  · intro given
    obtain ⟨owner, known⟩ := given
    exact ⟨_, known, rfl⟩

/-- Without a completion under way, a call that someone else awaits or a stream that someone else has
left open, the client has nothing to do. -/
theorem Accounts.idle (accounts : engine.Accounts engine.dutyOf)
    (finished : ∀ task, engine.runOf task = none)
    (unawaited : ∀ task call, engine.phaseOf task ≠ some (.calling call none))
    (left : ∀ (id : Nat) (stream : Stream), engine.streams[id]? = some stream →
      engine.Attached id ∨ stream.closed = true) :
    engine.client.activeCount = 0 ∧ engine.client.abortedCalls = [] := by
  have calls : engine.client.activeCalls = [] := by
    refine List.eq_nil_iff_forall_not_mem.mpr fun call member => ?_
    obtain ⟨task, held⟩ := (accounts.called call).mp member
    obtain ⟨owner, known⟩ := dutyOf_eq_call_iff.mp held
    cases owner with
    | none => exact unawaited task call known
    | some run =>
      have none := finished task
      unfold Engine.runOf at none
      rw [known] at none
      cases none
  have streams : engine.client.activeStreams = [] := by
    refine List.eq_nil_iff_forall_not_mem.mpr fun id member => ?_
    have known := List.getElem?_eq_getElem (accounts.booked.inside id member)
    have going := (accounts.booked.active id _ known).mp member
    rcases left id _ known with attached | closed
    · rcases accounts.minded id attached with closed | ⟨task, held⟩
      · cases going.symm.trans (closed _ known)
      · obtain ⟨phase, there, duty⟩ := Option.bind_eq_some_iff.mp held
        have reads := Phase.duty?_eq_stream_iff.mp duty
        have none := finished task
        unfold Engine.runOf at none
        rw [there] at none
        cases phase with
        | reading stream consumer =>
          cases consumer with
          | completion run pieces => cases none
          | next | collect => cases reads
        | _ => cases reads
    · cases going.symm.trans closed
  refine ⟨by simp [Client.activeCount, calls, streams], List.eq_nil_iff_forall_not_mem.mpr fun call member => ?_⟩
  have active := accounts.aborted call member
  rw [calls] at active
  cases active

/-- However a client is used, in every state that is reached a call is active exactly while one task
awaits it, aborted calls are active, a stream is active exactly until it is closed, and it was reported
once when it closed and is not reported again. When no completion is under way, nobody else awaits a
call and every stream is closed that was opened for no completion, nothing is active or aborted. -/
theorem books_balance (env : Environment) (client : Client) (seats : List (Settings × Cache Float))
    (uses : List Use) :
    let engine := used env client seats uses
    (engine.client.activeCalls.Nodup ∧ ∀ call, call ∈ engine.client.activeCalls ↔
      ∃! task, ∃ owner, engine.phaseOf task = some (.calling call owner)) ∧
    (∀ call ∈ engine.client.abortedCalls, call ∈ engine.client.activeCalls) ∧
    (engine.client.activeStreams.Nodup ∧ (∀ id ∈ engine.client.activeStreams, id < engine.streams.length) ∧
      ∀ (id : Nat) (stream : Stream), engine.streams[id]? = some stream →
        (id ∈ engine.client.activeStreams ↔ stream.closed = false) ∧
        stream.reports = (if stream.closed then 1 else 0) ∧
        ∀ more : List Use, ∃ found, (used env client seats (uses ++ more)).streams[id]? = some found ∧
          (stream.closed = true → found.closed = true ∧ found.reports = 1)) ∧
    ((∀ task, engine.runOf task = none) →
      (∀ task call, engine.phaseOf task ≠ some (.calling call none)) →
      (∀ (id : Nat) (stream : Stream), engine.streams[id]? = some stream →
        engine.Attached id ∨ stream.closed = true) →
      engine.client.activeCount = 0 ∧ engine.client.abortedCalls = []) := by
  intro engine
  have accounts := ((accounts_opening client seats).steps env uses).1
  refine ⟨⟨accounts.once, fun call => ?_⟩, accounts.aborted, ⟨accounts.booked.once,
    accounts.booked.inside, fun id stream known => ⟨accounts.booked.active id stream known,
      accounts.booked.reports id stream known, fun more => ?_⟩⟩, accounts.idle⟩
  · refine (accounts.called call).trans ⟨fun held => ?_, fun held => ?_⟩
    · obtain ⟨task, held⟩ := held
      exact ⟨task, dutyOf_eq_call_iff.mp held, fun other held' =>
        accounts.alone other task call (dutyOf_eq_call_iff.mpr held') held⟩
    · obtain ⟨task, held, -⟩ := held
      exact ⟨task, dutyOf_eq_call_iff.mpr held⟩
  · obtain ⟨later, shutting⟩ := accounts.steps env more
    rw [used, List.foldl_append]
    obtain ⟨found, known', closed⟩ := shutting id stream known
    refine ⟨found, known', fun shut => ⟨closed shut, ?_⟩⟩
    rw [later.booked.reports id found known', closed shut]
    rfl

/-- A call that is stopped, a stream that is aborted, and a completion that reads another stream. -/
def busyUses : List Use :=
  let call : Call := { streamed := false, messages := [] }
  [.begin (.chat call), .openStream call, .move (.request 0 blank ⟨0, 0⟩), .move .turn, .move .turn,
    .cancelCall 2, .abortStream 0, .move .turn, .move .turn, .move .turn, .move .turn, .move .turn,
    .move .turn]

/-- All three are active at one time, and nothing is once they are over. -/
theorem books_balance_busy :
    let busy := used ⟨fun _ => [], fun _ => 0⟩ { replies := [⟨["x"], none⟩] }
      [({ whole with stream := true }, ⟨1, 0, []⟩)]
    (busy (busyUses.take 6)).client.activeCount = 3 ∧
      (busy (busyUses.take 6)).client.abortedCalls = [2] ∧
      (busy busyUses).client.activeCount = 0 ∧ (busy busyUses).client.abortedCalls = [] := by
  intro busy
  have finished : ∀ task < 5, (busy busyUses).loop.isDone task = true := by decide
  have short : (busy busyUses).loop.futures.length = 5 := by decide
  have shut : (busy busyUses).streams.all (·.closed) = true := by decide
  have none (task : Nat) : (busy busyUses).phaseOf task = none := by
    refine phaseOf_eq_none_iff.mpr fun activity known => ?_
    have ended := finished task (short ▸ known.lt)
    rw [Loop.isDone_iff] at ended
    exact ended known.2
  refine ⟨by decide, by decide, (books_balance _ _ _ busyUses).2.2.2 (fun task => ?_)
    (fun task call held => ?_) fun id stream known => ?_⟩
  · rw [Engine.runOf, none]
    rfl
  · cases (none task).symm.trans held
  · exact Or.inr (List.all_eq_true.mp shut stream (List.mem_of_getElem? known))

end Engine

end InlineCompletion
