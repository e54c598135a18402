import InlineCompletion.Proofs.Engine.Accounting
import InlineCompletion.Proofs.Engine.Drawing

/-!
The books of the client balance. Completions and others who use the client at will, and cancel whatever
task they like, leave no call active that nobody awaits and no stream that is closed; a stream of a
completion is closed when the completion leaves it.
-/

namespace InlineCompletion

namespace Phase

/-- What a task in this phase has yet to give back to the client. -/
def duty? (phase : Phase) : Option Belonging :=
  (phase.calls?.map .call).or (phase.reads?.map .stream)

theorem duty?_eq_call_iff {phase : Phase} {call : Nat} :
    phase.duty? = some (.call call) ↔ phase.calls? = some call := by
  unfold duty?
  cases phase.calls? <;> cases phase.reads? <;> simp

theorem duty?_eq_stream_iff {phase : Phase} {id : Nat} :
    phase.duty? = some (.stream id) ↔ phase.reads? = some id := by
  cases phase with
  | calling call owner => simp [duty?, calls?, reads?]
  | reading stream consumer => simp [duty?, calls?]
  | _ => simp [duty?, calls?, reads?]

end Phase

namespace Engine

variable {engine old new : Engine} {env : Environment} {hit : Belonging → Prop} {task : Nat}
  {duties : Nat → Option Belonging}

/-- What each task has yet to give back. -/
def dutyOf (engine : Engine) (task : Nat) : Option Belonging :=
  (engine.phaseOf task).bind Phase.duty?

/-- The books agree with what the tasks have yet to give back. -/
structure Accounts (engine : Engine) (duties : Nat → Option Belonging) : Prop where
  released : engine.Released
  booked : engine.Booked
  once : engine.client.activeCalls.Nodup
  aborted : ∀ call ∈ engine.client.abortedCalls, call ∈ engine.client.activeCalls
  called : ∀ call, call ∈ engine.client.activeCalls ↔ ∃ task, duties task = some (.call call)
  alone : ∀ first second call, duties first = some (.call call) →
    duties second = some (.call call) → first = second
  inside : ∀ call ∈ engine.client.activeCalls, call < engine.loop.futures.length
  minded : ∀ id, engine.Attached id → engine.Closed id ∨ ∃ task, duties task = some (.stream id)

/-- One task takes on another duty. -/
def reassign (duties : Nat → Option Belonging) (task : Nat) (duty : Option Belonging) :
    Nat → Option Belonging :=
  fun other => if other = task then duty else duties other

namespace Accounts

theorem congr {others : Nat → Option Belonging} (accounts : engine.Accounts duties)
    (same : ∀ task, others task = duties task) : engine.Accounts others := by
  rw [show others = duties from funext same]
  exact accounts

/-- Off the books, and with the same futures to be released. -/
theorem of_same (accounts : old.Accounts duties) (released : new.Released)
    (length : old.loop.futures.length ≤ new.loop.futures.length) (client : new.client = old.client)
    (streams : new.streams = old.streams) (requests : new.requests = old.requests) :
    new.Accounts duties where
  released := released
  booked := by
    obtain ⟨reported, reports, active, inside, once, attached⟩ := accounts.booked
    refine ⟨streams ▸ reported, streams ▸ reports, ?_, ?_, client ▸ once, ?_⟩
    · rw [streams, client]
      exact active
    · rw [streams, client]
      exact inside
    · rw [streams]
      exact fun id ⟨request, found, known, same⟩ => attached id ⟨request, found, requests ▸ known, same⟩
  once := client ▸ accounts.once
  aborted := client ▸ accounts.aborted
  called := client ▸ accounts.called
  alone := accounts.alone
  inside := fun call member => Nat.lt_of_lt_of_le (accounts.inside call (client ▸ member)) length
  minded := fun id ⟨request, found, known, same⟩ =>
    (accounts.minded id ⟨request, found, requests ▸ known, same⟩).imp_left fun closed stream known =>
      closed stream (streams ▸ known)

theorem tallied (accounts : old.Accounts duties) (tallied : Tallied hit old new) :
    new.Accounts duties where
  released := tallied.released accounts.released
  booked := tallied.booked accounts.booked
  once := tallied.calls ▸ accounts.once
  aborted := fun call member => by
    rw [tallied.calls]
    exact (tallied.aborted call member).elim (accounts.aborted call) And.left
  called := by
    rw [tallied.calls]
    exact accounts.called
  alone := accounts.alone
  inside := fun call member => Nat.lt_of_lt_of_le (accounts.inside call (tallied.calls ▸ member))
    (tallied.steady accounts.released).length
  minded := fun id attached => (accounts.minded id (tallied.attached id attached)).imp_left tallied.closed

/-- The task leaves its stream to nobody, unless that is closed. -/
theorem reassigned (accounts : engine.Accounts duties) {duty : Option Belonging}
    (calls : ∀ call, duties task = some (.call call) ↔ duty = some (.call call))
    (left : ∀ id, duties task = some (.stream id) → engine.Closed id ∨ duty = some (.stream id)) :
    engine.Accounts (reassign duties task duty) := by
  have same (other call : Nat) : reassign duties task duty other = some (.call call) ↔
      duties other = some (.call call) := by
    unfold reassign
    split
    · next here => rw [here, calls]
    · rfl
  refine ⟨accounts.released, accounts.booked, accounts.once, accounts.aborted, fun call => ?_,
    fun first second call => ?_, accounts.inside, fun id attached => ?_⟩
  · simp only [same]
    exact accounts.called call
  · simp only [same]
    exact accounts.alone first second call
  · rcases accounts.minded id attached with closed | ⟨other, reads⟩
    · exact Or.inl closed
    · by_cases here : other = task
      · subst here
        refine (left id reads).imp_right fun reads' => ⟨other, ?_⟩
        simp [reassign, reads']
      · exact Or.inr ⟨other, by simp [reassign, here, reads]⟩

/-- A call is no longer active when the one who awaited it goes on. -/
theorem dropCall (accounts : engine.Accounts duties) {call : Nat}
    (awaits : duties task = some (.call call)) :
    (engine.withClient (·.dropCall call)).Accounts (reassign duties task none) := by
  have kept (other : Nat) : (∃ holder, reassign duties task none holder = some (.call other)) ↔
      other ≠ call ∧ ∃ holder, duties holder = some (.call other) := by
    constructor
    · intro given
      obtain ⟨holder, holds⟩ := given
      unfold reassign at holds
      split at holds
      · cases holds
      · next elsewhere =>
        refine ⟨fun same => elsewhere ?_, holder, holds⟩
        subst same
        exact accounts.alone holder task other holds awaits
    · intro given
      obtain ⟨different, holder, holds⟩ := given
      refine ⟨holder, ?_⟩
      unfold reassign
      rw [if_neg]
      · exact holds
      · intro here
        subst here
        cases awaits.symm.trans holds
        exact different rfl
  have dropped (calls : List Nat) (other : Nat) :
      other ∈ calls.filter (· ≠ call) ↔ other ≠ call ∧ other ∈ calls := by
    simp [and_comm]
  refine ⟨⟨accounts.released.lone, accounts.released.gate, accounts.released.requests⟩,
    ⟨accounts.booked.reported, accounts.booked.reports, accounts.booked.active, accounts.booked.inside,
      accounts.booked.once, accounts.booked.attached⟩, accounts.once.filter _, ?_, ?_, ?_, ?_, ?_⟩
  · intro other member
    obtain ⟨different, member⟩ := (dropped _ other).mp member
    exact (dropped _ other).mpr ⟨different, accounts.aborted other member⟩
  · intro other
    refine (dropped _ other).trans (Iff.trans ?_ (kept other).symm)
    rw [accounts.called other]
  · intro first second other holds holds'
    unfold reassign at holds holds'
    split at holds
    · cases holds
    · split at holds'
      · cases holds'
      · exact accounts.alone first second other holds holds'
  · exact fun other member => accounts.inside other ((dropped _ other).mp member).2
  · intro id attached
    refine (accounts.minded id attached).imp_right fun ⟨holder, reads⟩ => ⟨holder, ?_⟩
    unfold reassign
    rw [if_neg]
    · exact reads
    · intro here
      subst here
      cases awaits.symm.trans reads

/-- A call is active from its beginning on, and the task awaits it. -/
theorem beginCall (accounts : engine.Accounts duties) (idle : duties task = none) (call : Call) :
    (engine.beginCall call).2.Accounts
      (reassign duties task (some (.call engine.loop.futures.length))) := by
  have added : Tallied (fun _ => False) engine (engine.spawn (.answer call)).2 := tallied_spawn engine nofun
  have spawned := accounts.tallied added
  have fresh : engine.loop.futures.length ∉ engine.client.activeCalls := fun member =>
    Nat.lt_irrefl _ (accounts.inside _ member)
  have added (other : Nat) : other ∈ engine.client.activeCalls ++ [engine.loop.futures.length] ↔
      other ∈ engine.client.activeCalls ∨ other = engine.loop.futures.length := by simp
  have unheld (holder : Nat) : duties holder ≠ some (.call engine.loop.futures.length) := fun holds =>
    fresh ((accounts.called _).mpr ⟨holder, holds⟩)
  have holds (holder other : Nat) :
      reassign duties task (some (.call engine.loop.futures.length)) holder = some (.call other) ↔
        duties holder = some (.call other) ∨ holder = task ∧ other = engine.loop.futures.length := by
    unfold reassign
    split
    · next here => simp [here, idle, eq_comm]
    · next elsewhere => simp [elsewhere]
  refine ⟨⟨spawned.released.lone, spawned.released.gate, spawned.released.requests⟩,
    ⟨spawned.booked.reported, spawned.booked.reports, spawned.booked.active, spawned.booked.inside,
      spawned.booked.once, spawned.booked.attached⟩, ?_, ?_, ?_, ?_, ?_, ?_⟩
  · show (engine.client.activeCalls ++ [engine.loop.futures.length]).Nodup
    refine List.nodup_append.mpr ⟨accounts.once, by simp, fun a member b member' same => ?_⟩
    rw [List.mem_singleton.mp member'] at same
    exact fresh (same ▸ member)
  · exact fun other member => (added other).mpr (Or.inl (accounts.aborted other member))
  · intro other
    refine (added other).trans ?_
    simp only [holds, accounts.called]
    constructor
    · rintro (⟨holder, held⟩ | rfl)
      · exact ⟨holder, Or.inl held⟩
      · exact ⟨task, Or.inr ⟨rfl, rfl⟩⟩
    · rintro ⟨holder, held | ⟨-, same⟩⟩
      · exact Or.inl ⟨holder, held⟩
      · exact Or.inr same
  · intro first second other held held'
    rcases (holds first other).mp held with held | ⟨rfl, rfl⟩
    · rcases (holds second other).mp held' with held' | ⟨-, rfl⟩
      · exact accounts.alone first second other held held'
      · exact absurd held (unheld first)
    · rcases (holds second _).mp held' with held' | ⟨rfl, -⟩
      · exact absurd held' (unheld second)
      · rfl
  · intro other member
    have length : (engine.loop.spawn (.start (.answer call))).2.futures.length =
        engine.loop.futures.length + 1 := Loop.length_spawn ..
    show other < (engine.loop.spawn (.start (.answer call))).2.futures.length
    rcases (added other).mp member with known | same
    · exact length ▸ Nat.lt_succ_of_lt (accounts.inside other known)
    · exact length ▸ same ▸ Nat.lt_succ_self _
  · intro id attached
    refine (accounts.minded id attached).imp_right fun ⟨holder, reads⟩ => ⟨holder, ?_⟩
    unfold reassign
    rw [if_neg]
    · exact reads
    · intro here
      subst here
      cases idle.symm.trans reads

/-- A stream is active as soon as it is there. -/
theorem openStream (accounts : engine.Accounts duties) (call : Call) :
    (engine.openStream call).2.Accounts duties := by
  have look {id : Nat} {stream : Stream}
      (known : (engine.streams ++ [({ source := { opening := some call } } : Stream)])[id]? = some stream) :
      id < engine.streams.length ∧ engine.streams[id]? = some stream ∨
        id = engine.streams.length ∧ stream = { source := { opening := some call } } := by
    rcases Nat.lt_or_ge id engine.streams.length with inside | outside
    · rw [List.getElem?_append_left inside] at known
      exact Or.inl ⟨inside, known⟩
    · rw [List.getElem?_append_right outside] at known
      obtain ⟨last, found⟩ := List.getElem?_eq_some_iff.mp known
      have first : id - engine.streams.length = 0 := Nat.lt_one_iff.mp last
      have here : id = engine.streams.length := Nat.le_antisymm (Nat.sub_eq_zero_iff_le.mp first) outside
      subst here
      exact Or.inr ⟨rfl, by simpa using found.symm⟩
  have length : (engine.openStream call).2.streams.length = engine.streams.length + 1 :=
    List.length_append
  obtain ⟨reported, reports, active, inside, once, attached⟩ := accounts.booked
  refine ⟨⟨accounts.released.lone, accounts.released.gate, accounts.released.requests⟩,
    ⟨?_, ?_, ?_, ?_, ?_, ?_⟩, accounts.once, accounts.aborted, accounts.called, accounts.alone,
    accounts.inside, ?_⟩
  · intro id stream known
    rcases look known with ⟨-, known⟩ | ⟨-, rfl⟩
    · exact reported id stream known
    · rfl
  · intro id stream known
    rcases look known with ⟨-, known⟩ | ⟨-, rfl⟩
    · exact reports id stream known
    · rfl
  · intro id stream known
    show id ∈ engine.client.activeStreams ++ [engine.streams.length] ↔ _
    rw [List.mem_append, List.mem_singleton]
    rcases look known with ⟨here, known⟩ | ⟨rfl, rfl⟩
    · rw [active id stream known]
      exact or_iff_left (Nat.ne_of_lt here)
    · simp
  · intro id member
    rw [length]
    rcases List.mem_append.mp member with known | new
    · exact Nat.lt_succ_of_lt (inside id known)
    · exact List.mem_singleton.mp new ▸ Nat.lt_succ_self _
  · refine List.nodup_append.mpr ⟨once, by simp, fun a member b member' same => ?_⟩
    rw [List.mem_singleton.mp member'] at same
    exact Nat.lt_irrefl _ (inside _ (same ▸ member))
  · intro id known
    rw [length]
    exact Nat.lt_succ_of_lt (attached id known)
  · intro id known
    refine (accounts.minded id known).imp_left fun closed stream there => ?_
    rcases look there with ⟨-, there⟩ | ⟨rfl, -⟩
    · exact closed stream there
    · exact absurd (attached _ known) (Nat.lt_irrefl _)

/-- A task that has a stream opened for its request minds it. -/
theorem granted (accounts : engine.Accounts duties) (idle : duties task = none) (request : Nat)
    (call : Call) : (engine.granted request call).Accounts
      (reassign duties task (some (.stream engine.streams.length))) := by
  have opened := accounts.openStream call
  have told : (engine.openStream call).2.Accounts
      (reassign duties task (some (.stream engine.streams.length))) :=
    opened.reassigned (fun call => by simp [idle]) fun id reads => by cases idle.symm.trans reads
  have look {id : Nat} (attached : (engine.granted request call).Attached id) :
      (engine.openStream call).2.Attached id ∨ id = engine.streams.length := by
    obtain ⟨other, found, known, mine⟩ := attached
    have known : ((engine.openStream call).2.requests.modify request fun r =>
        { r with stream := some engine.streams.length })[other]? = some found := known
    rw [getElem?_modify] at known
    split at known
    · obtain ⟨before, -, rfl⟩ := Option.map_eq_some_iff.mp known
      exact Or.inr (Option.some.inj mine).symm
    · exact Or.inl ⟨other, found, known, mine⟩
  refine ⟨?_, ⟨told.booked.reported, told.booked.reports, told.booked.active, told.booked.inside,
    told.booked.once, fun id attached => ?_⟩, told.once, told.aborted, told.called, told.alone,
    told.inside, fun id attached => ?_⟩
  · refine told.released.of_bare told.released.lone (fun _ bare => bare) (fun _ => Or.inl)
      fun id found known waiter member => ?_
    have known : ((engine.openStream call).2.requests.modify request fun r =>
        { r with stream := some engine.streams.length })[id]? = some found := known
    rw [getElem?_modify] at known
    split at known
    · obtain ⟨before, known', rfl⟩ := Option.map_eq_some_iff.mp known
      exact Or.inr ⟨id, before, known', member⟩
    · exact Or.inr ⟨id, found, known, member⟩
  · rcases look attached with known | rfl
    · exact told.booked.attached id known
    · show _ < (engine.streams ++ [_]).length
      simp
  · rcases look attached with known | rfl
    · exact told.minded id known
    · exact Or.inr ⟨task, by simp [reassign]⟩

/-- Whatever a task does with the books, they agree with where it waits now. -/
theorem accounted (accounts : old.Accounts duties) {reads : Option Nat}
    (mine : duties task = reads.map .stream) {step : Step} (accounted : Accounted hit reads old step) :
    Steady old step.1 ∧
      step.1.Accounts (reassign duties task (step.2.phase?.bind Phase.duty?)) := by
  have settle {hit : Belonging → Prop} {reads : Option Nat} {old : Engine}
      {duties : Nat → Option Belonging} (accounts : old.Accounts duties)
      (mine : duties task = reads.map .stream) (minded : Minded hit reads old step) :
      step.1.Accounts (reassign duties task (step.2.phase?.bind Phase.duty?)) := by
    have awaits (call : Nat) : step.2.phase?.bind Phase.duty? ≠ some (.call call) := by
      intro held
      obtain ⟨phase, waits, duty⟩ := Option.bind_eq_some_iff.mp held
      cases (minded.idle phase waits).symm.trans (Phase.duty?_eq_call_iff.mp duty)
    refine (accounts.tallied minded.tallied).reassigned (fun call => ?_) fun id held => ?_
    · rw [mine]
      exact iff_of_false (by cases reads <;> simp) (awaits call)
    · rw [mine] at held
      obtain ⟨other, same, held⟩ := Option.map_eq_some_iff.mp held
      cases held
      refine (minded.left id same).imp_right fun waits => ?_
      obtain ⟨phase, waits, reads⟩ := Option.bind_eq_some_iff.mp waits
      rw [waits]
      exact Phase.duty?_eq_stream_iff.mpr reads
  have twice (duty : Option Belonging) : reassign (reassign duties task duty) task
      (step.2.phase?.bind Phase.duty?) = reassign duties task (step.2.phase?.bind Phase.duty?) := by
    funext other
    unfold reassign
    split <;> rfl
  cases accounted with
  | minds minded => exact ⟨minded.tallied.steady accounts.released, settle accounts mine minded⟩
  | opens middle request call first second unread =>
    subst unread
    have granted := (accounts.tallied first).granted mine request call
    have opened : Steady middle (middle.granted request call) := .of_loop_eq rfl
    refine ⟨((first.steady accounts.released).trans opened).trans
      (second.tallied.steady granted.released), ?_⟩
    rw [← twice]
    exact settle granted (by simp [reassign]) second
  | calls middle call owner first second loop waits unread =>
    subst unread
    have begun := (accounts.tallied first).beginCall mine call
    have added : Steady middle (middle.spawn (.answer call)).2 := steady_spawn middle nofun
    have spawned : Steady middle (middle.beginCall call).2 := added.to_same rfl
    refine ⟨((first.steady accounts.released).trans spawned).trans (second.steady begun.released), ?_⟩
    rw [waits]
    exact begun.tallied second

end Accounts

/-! One turn. -/

theorem phaseOf_eq_none_iff {task : Nat} : engine.phaseOf task = none ↔
    ∀ activity, ¬engine.loop.Unfinished task activity := by
  rw [Option.eq_none_iff_forall_ne_some]
  constructor
  · exact fun none activity known => none activity.phase (phaseOf_eq_some_iff.mpr ⟨activity, known, rfl⟩)
  · intro none phase some
    obtain ⟨activity, known, -⟩ := phaseOf_eq_some_iff.mp some
    exact none activity known

/-- A task that has yet to start owes nothing. -/
theorem Steady.dutyOf (steady : Steady old new) : new.dutyOf = old.dutyOf := by
  funext task
  unfold Engine.dutyOf
  cases before : old.phaseOf task with
  | some phase =>
    obtain ⟨activity, known, rfl⟩ := phaseOf_eq_some_iff.mp before
    obtain ⟨found, known', same, -⟩ := steady.after task activity known
    rw [phaseOf_eq_some_iff.mpr ⟨found, known', same⟩]
  | none =>
    cases after : new.phaseOf task with
    | none => rfl
    | some phase =>
      obtain ⟨activity, known, rfl⟩ := phaseOf_eq_some_iff.mp after
      rcases steady.before task activity known with ⟨found, known', -⟩ | ⟨-, -, job, start, -⟩
      · exact absurd known' (phaseOf_eq_none_iff.mp before found)
      · rw [start]
        rfl

theorem phaseOf_conclude {step : Step} {activity : Activity Phase}
    (known : step.1.loop.Unfinished task activity) (other : Nat) :
    (conclude task step).phaseOf other =
      if other = task then step.2.phase? else step.1.phaseOf other := by
  split
  · next here =>
    subst here
    obtain ⟨engine, verdict⟩ := step
    cases verdict with
    | wait target phase =>
      exact phaseOf_eq_some_iff.mpr
        ⟨_, (Loop.unfinished_park known phase target other _).mpr (Or.inl ⟨rfl, rfl⟩), rfl⟩
    | done result =>
      refine phaseOf_eq_none_iff.mpr fun found unfinished => ?_
      rw [loop_conclude_done] at unfinished
      exact ((Loop.unfinished_finish known result other found).mp unfinished).1 rfl
  · next elsewhere =>
    refine Option.ext fun phase => ?_
    rw [phaseOf_eq_some_iff, phaseOf_eq_some_iff]
    exact exists_congr fun found => and_congr_left fun _ => unfinished_conclude known elsewhere found

theorem Released.conclude {step : Step} (released : step.1.Released) {activity : Activity Phase}
    (known : step.1.loop.Unfinished task activity) : (Engine.conclude task step).Released := by
  obtain ⟨-, client⟩ := conclude_client task step
  obtain ⟨-, requests, -⟩ := conclude_frame task step
  have loop : (Engine.conclude task step).loop.Lone ∧
      ∀ id, step.1.loop.Bare id → (Engine.conclude task step).loop.Bare id := by
    obtain ⟨engine, verdict⟩ := step
    cases verdict with
    | wait target phase =>
      have bare (id : Nat) : engine.loop.Bare id → (engine.loop.park task phase target).Bare id :=
        (Loop.bare_park known phase target id).mpr
      refine ⟨?_, bare⟩
      show (engine.loop.park task phase target).Lone
      refine released.lone.of_same (fun handle member => ?_) (fun id handle member => ?_)
        (Loop.timers_watch ..) bare
      · have member : handle ∈ ((engine.loop.setActivity task { phase, waitingFor := some target }).watch
            target (.wake task)).ready := member
        rw [Loop.ready_watch] at member
        split at member
        · exact (List.mem_append.mp member).imp_right fun new => ⟨task, List.mem_singleton.mp new⟩
        · exact Or.inl member
      · have member : handle ∈ ((engine.loop.setActivity task { phase, waitingFor := some target }).watch
            target (.wake task)).watchers id := member
        rw [Loop.watchers_watch] at member
        split at member
        · next here =>
          rw [here.1]
          simp only [Loop.watchers_setActivity] at member
          exact (List.mem_append.mp member).imp_right fun new => ⟨task, List.mem_singleton.mp new⟩
        · rw [Loop.watchers_setActivity] at member
          exact Or.inl member
    | done result =>
      rw [loop_conclude_done]
      exact ⟨released.lone.settle task result, fun id => (Loop.bare_settle task id result).mpr⟩
  exact released.of_bare loop.1 loop.2 (fun waiter member => Or.inl (client ▸ member))
    fun id request found waiter member => Or.inr ⟨id, request, requests ▸ found, member⟩

theorem Released.wake (released : engine.Released) {rest : List Handle}
    (fewer : ∀ handle ∈ rest, handle ∈ engine.loop.ready) {activity : Activity Phase}
    (known : engine.loop.Unfinished task activity) :
    ({ engine with loop := engine.loop.wakeFirst rest task activity.phase } : Engine).Released := by
  have bare (id : Nat) : engine.loop.Bare id → (engine.loop.wakeFirst rest task activity.phase).Bare id :=
    (Loop.bare_wakeFirst known activity.phase id).mpr
  refine released.of_bare (released.lone.of_same (fun handle member => Or.inl (fewer handle member))
    (fun id handle member => ?_) rfl bare) bare (fun _ => Or.inl)
    fun id request found waiter member => Or.inr ⟨id, request, found, member⟩
  exact Or.inl (Loop.watchers_wakeFirst .. ▸ member)

/-- A task runs that has not ended; another handle of a task does nothing. -/
theorem runTask_cases (env : Environment) (engine : Engine) (task : Nat) :
    engine.runTask env task = engine ∨ ∃ activity, engine.loop.Unfinished task activity ∧
      engine.runTask env task = conclude task ((engine.withLoop
        (·.setActivity task { phase := activity.phase })).resume env activity.phase
          (engine.incoming activity)) := by
  unfold runTask
  split
  · next watchers activity found =>
    refine Or.inr ⟨activity, ⟨?_, ?_⟩, rfl⟩
    · simp [Loop.activity?, found]
    · simp [Loop.outcome?, found]
  · exact Or.inl rfl

/-- The task that goes on has given back its call. -/
theorem Accounts.dropped (accounts : engine.Accounts duties) {phase : Phase}
    (mine : duties task = phase.duty?) :
    (engine.dropped phase).Accounts (reassign duties task (phase.reads?.map .stream)) := by
  unfold Engine.dropped
  cases calls : phase.calls? with
  | some call =>
    have reads : phase.reads? = none := by
      cases phase with
      | calling => rfl
      | _ => cases calls
    rw [reads]
    exact accounts.dropCall (mine.trans (Phase.duty?_eq_call_iff.mpr calls))
  | none =>
    refine accounts.congr fun other => ?_
    unfold reassign
    split
    · next here => rw [here, mine, Phase.duty?, calls]; rfl
    · rfl

theorem Accounts.runTask (env : Environment) (accounts : engine.Accounts engine.dutyOf) (task : Nat) :
    (engine.runTask env task).Accounts (engine.runTask env task).dutyOf := by
  rcases runTask_cases env engine task with same | ⟨activity, known, ran⟩
  · rw [same]
    exact accounts
  rw [ran]
  have wakes (other : Nat) (found : Activity Phase) := Loop.unfinished_wakeFirst engine.loop.ready known
    activity.phase other found
  let awake := engine.withLoop (·.setActivity task { phase := activity.phase })
  have released : awake.Released := accounts.released.wake (fun _ member => member) known
  have accounts' : awake.Accounts engine.dutyOf := accounts.of_same released
    (Nat.le_of_eq (Loop.length_setActivity ..).symm) rfl rfl rfl
  have mine : engine.dutyOf task = activity.phase.duty? := by
    unfold Engine.dutyOf
    rw [phaseOf_eq_some_iff.mpr ⟨activity, known, rfl⟩]
    rfl
  have phases (other : Nat) : awake.phaseOf other = engine.phaseOf other := by
    refine Option.ext fun phase => ?_
    rw [phaseOf_eq_some_iff, phaseOf_eq_some_iff]
    constructor
    · intro given
      obtain ⟨found, unfinished, rfl⟩ := given
      rcases (wakes other found).mp unfinished with ⟨rfl, rfl⟩ | ⟨-, unfinished⟩
      · exact ⟨activity, known, rfl⟩
      · exact ⟨found, unfinished, rfl⟩
    · intro given
      obtain ⟨found, unfinished, rfl⟩ := given
      by_cases here : other = task
      · subst here
        cases known.unique unfinished
        exact ⟨_, (wakes other _).mpr (Or.inl ⟨rfl, rfl⟩), rfl⟩
      · exact ⟨found, (wakes other found).mpr (Or.inr ⟨here, unfinished⟩), rfl⟩
  have same : (awake.dropped activity.phase).loop = awake.loop := by
    unfold Engine.dropped
    split <;> rfl
  have holds : reassign engine.dutyOf task (activity.phase.reads?.map .stream) task =
      activity.phase.reads?.map .stream := if_pos rfl
  obtain ⟨steady, done⟩ := (accounts'.dropped mine).accounted holds
    (accounted_resume env awake activity.phase (engine.incoming activity))
  obtain ⟨runs, unfinished, -⟩ := steady.after task { phase := activity.phase }
    (same ▸ (wakes task _).mpr (Or.inl ⟨rfl, rfl⟩))
  generalize awake.resume env activity.phase (engine.incoming activity) = step at *
  obtain ⟨streams, client⟩ := conclude_client task step
  obtain ⟨-, requests, -⟩ := conclude_frame task step
  have length : step.1.loop.futures.length ≤ (conclude task step).loop.futures.length := by
    obtain ⟨engine, verdict⟩ := step
    cases verdict with
    | wait target phase => exact Nat.le_of_eq (Loop.length_park ..).symm
    | done result =>
      rw [loop_conclude_done]
      exact Nat.le_of_eq (Loop.length_settle ..).symm
  refine (done.of_same (done.released.conclude unfinished) length client streams requests).congr fun other => ?_
  unfold Engine.dutyOf reassign
  rw [phaseOf_conclude unfinished]
  split
  · rfl
  · have steady := congrFun steady.dutyOf other
    unfold Engine.dutyOf at steady
    rw [steady]
    refine Eq.trans ?_ (congrArg (Option.bind · Phase.duty?) (phases other))
    unfold phaseOf
    rw [same]

/-- Whom the loop releases is on no book. -/
theorem Accounts.withLoop (accounts : engine.Accounts engine.dutyOf) {f : Loop Phase → Loop Phase}
    (steady : Steady engine (engine.withLoop f)) (lone : (f engine.loop).Lone)
    (bare : ∀ id, engine.loop.Bare id → (f engine.loop).Bare id) :
    (engine.withLoop f).Accounts (engine.withLoop f).dutyOf := by
  have released : (engine.withLoop f).Released := accounts.released.of_bare lone bare (fun _ => Or.inl)
    fun id request found waiter member => Or.inr ⟨id, request, found, member⟩
  rw [steady.dutyOf]
  exact accounts.of_same released steady.length rfl rfl rfl

theorem Accounts.turn (env : Environment) (accounts : engine.Accounts engine.dutyOf) :
    ((engine.turn? env).getD engine).Accounts ((engine.turn? env).getD engine).dutyOf := by
  unfold turn?
  split
  · exact accounts
  · cases first : engine.loop.ready with
    | nil =>
      simp only [Loop.next?, first]
      exact accounts
    | cons handle rest =>
      simp only [Loop.next?, first, Option.map_some, Option.getD_some]
      let popped : Engine := { engine with loop := { engine.loop with ready := rest } }
      have fewer (other : Handle) (member : other ∈ rest) : other ∈ engine.loop.ready :=
        first ▸ List.mem_cons_of_mem _ member
      have released : popped.Released := accounts.released.of_bare
        (accounts.released.lone.of_same (fun other member => Or.inl (fewer other member))
          (fun _ _ => Or.inl) rfl fun _ bare => bare) (fun _ bare => bare) (fun _ => Or.inl)
        fun id request found waiter member => Or.inr ⟨id, request, found, member⟩
      have accounts' : popped.Accounts popped.dutyOf :=
        accounts.of_same released (Nat.le_refl _) rfl rfl rfl
      cases handle with
      | wake task => exact accounts'.runTask env task
      | release waiter =>
        have bare : popped.loop.Bare waiter :=
          accounts.released.lone.ready waiter (first ▸ List.mem_cons_self ..)
        exact accounts'.withLoop (steady_settle bare .nothing) (released.lone.settle waiter _)
          fun id => (Loop.bare_settle waiter id _).mpr

end Engine

end InlineCompletion
