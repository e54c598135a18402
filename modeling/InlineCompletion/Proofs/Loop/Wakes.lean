import InlineCompletion.Proofs.Loop.Tasks

/-!
No task is woken twice and none is forgotten. A task that has not ended is either noted exactly once
among what is ready, and then it has nothing left to wait for, or noted exactly once by the pending
future that it waits for. While a task runs it is noted nowhere.
-/

namespace InlineCompletion.Loop

variable {π : Type} (loop : Loop π)

def Awake (task : Nat) (activity : Activity π) : Prop :=
  loop.ready.count (.wake task) = 1 ∧
    ∀ target, activity.waitingFor = some target → loop.isDone target = true

def Asleep (task : Nat) (activity : Activity π) : Prop :=
  loop.ready.count (.wake task) = 0 ∧ activity.cancelRequested = false ∧
    ∃ target, activity.waitingFor = some target ∧ loop.isPending target = true ∧
      (loop.watchers target).count (.wake task) = 1

structure Sound (running : Option Nat) : Prop where
  rests : ∀ task activity, loop.Unfinished task activity → running ≠ some task →
    loop.Awake task activity ∨ loop.Asleep task activity
  ready : ∀ task, .wake task ∈ loop.ready →
    running ≠ some task ∧ ∃ activity, loop.Unfinished task activity
  watched : ∀ target task, .wake task ∈ loop.watchers target → running ≠ some task ∧
    ∃ activity, loop.Unfinished task activity ∧ activity.waitingFor = some target
  settled : ∀ target, loop.isDone target = true → loop.watchers target = []
  /-- No two tasks wait for one future. -/
  alone : ∀ first second activity other target, loop.Unfinished first activity →
    loop.Unfinished second other → activity.waitingFor = some target →
    other.waitingFor = some target → first = second
  readyReleases : ∀ waiter, .release waiter ∈ loop.ready → loop.Bare waiter
  watchedReleases : ∀ target waiter, .release waiter ∈ loop.watchers target → loop.Bare waiter
  timed : ∀ timer ∈ loop.timers, loop.Bare timer.waiter
  /-- Only a task can fail. -/
  calm : ∀ waiter failure, loop.Bare waiter → loop.outcome? waiter ≠ some (.failed failure)
  runs : ∀ task, running = some task →
    ∃ activity, loop.Unfinished task activity ∧ activity.waitingFor = none

variable {loop} {running : Option Nat}

theorem sound_empty : ({} : Loop π).Sound none := by
  have nobody (task : Nat) (activity : Activity π) : ¬({} : Loop π).Unfinished task activity :=
    fun unfinished => nomatch unfinished.1
  exact
    { rests := fun task activity unfinished => absurd unfinished (nobody task activity)
      ready := nofun
      watched := nofun
      settled := fun _ _ => rfl
      alone := fun first _ activity _ _ unfinished => absurd unfinished (nobody first activity)
      readyReleases := nofun
      watchedReleases := nofun
      timed := nofun
      calm := nofun
      runs := nofun }

theorem Sound.lone (sound : loop.Sound running) : loop.Lone :=
  ⟨sound.readyReleases, sound.watchedReleases, sound.timed⟩

/-- Only the future that a task waits for notes the task. -/
theorem Sound.count_watchers (sound : loop.Sound running) (target : Nat) {task : Nat}
    {activity : Activity π} (unfinished : loop.Unfinished task activity)
    (elsewhere : activity.waitingFor ≠ some target) :
    (loop.watchers target).count (.wake task) = 0 := by
  refine List.count_eq_zero.mpr fun member => elsewhere ?_
  obtain ⟨-, found, known, waits⟩ := sound.watched target task member
  exact unfinished.unique known ▸ waits

/-! A future ends. -/

/-- One who is at rest is so too when a future has ended: the sleeper that waited for it is awake now, and
nobody else has changed. -/
theorem Sound.rests_settle (sound : loop.Sound running) {id task : Nat} {activity : Activity π}
    (pending : loop.isPending id = true) (o : Outcome) (unfinished : loop.Unfinished task activity)
    (idle : running ≠ some task) :
    (loop.settle id o).Awake task activity ∨ (loop.settle id o).Asleep task activity := by
  have ready : (loop.settle id o).ready = loop.ready ++ loop.watchers id := by
    rw [ready_settle, if_pos pending]
  rcases sound.rests task activity unfinished idle with awake | asleep
  · left
    have absent := sound.count_watchers id unfinished fun waits =>
      not_done_of_pending pending (awake.2 id waits)
    refine ⟨by rw [ready, List.count_append, awake.1, absent], fun target waits => ?_⟩
    exact isDone_settle_of_isDone id o (awake.2 target waits)
  · obtain ⟨absent, heedful, target, waits, sleeping, noted⟩ := asleep
    by_cases same : target = id
    · subst same
      left
      refine ⟨by rw [ready, List.count_append, absent, noted], fun target' waits' => ?_⟩
      cases waits.symm.trans waits'
      rw [isDone_iff, outcome?_settle, if_pos ⟨rfl, pending⟩]
      nofun
    · right
      have elsewhere := sound.count_watchers id unfinished fun waits' =>
        same (Option.some.inj (waits.symm.trans waits'))
      refine ⟨by rw [ready, List.count_append, absent, elsewhere], heedful, target, waits, ?_, ?_⟩
      · have kept : (loop.settle id o).outcome? target = loop.outcome? target := by
          rw [outcome?_settle, if_neg fun here => same here.1]
        rwa [isPending_congr (length_settle loop id o) kept]
      · rwa [watchers_settle, if_neg fun here => same here.1]

/-- A bare future ends, or the task that runs does. -/
theorem Sound.settle_of_idle (sound : loop.Sound running) {later : Option Nat} {id : Nat} {o : Outcome}
    (pending : loop.isPending id = true) (idle : loop.Bare id ∨ running = some id)
    (goes : ∀ task, later = some task ↔ running = some task ∧ task ≠ id)
    (succeeds : loop.Bare id → ∀ failure, o ≠ .failed failure) : (loop.settle id o).Sound later := by
  have unfinished := unfinished_settle pending o
  have lone := sound.lone.settle id o
  have ready (task : Nat) (member : .wake task ∈ (loop.settle id o).ready) :
      running ≠ some task ∧ ∃ activity, loop.Unfinished task activity := by
    rw [ready_settle, if_pos pending] at member
    rcases List.mem_append.mp member with old | woken
    · exact sound.ready task old
    · obtain ⟨others, activity, known, -⟩ := sound.watched id task woken
      exact ⟨others, activity, known⟩
  have other {task : Nat} {activity : Activity π} (known : loop.Unfinished task activity)
      (others : running ≠ some task) : task ≠ id := by
    rcases idle with bare | runs
    · exact known.ne_of_bare bare
    · exact fun same => others (same ▸ runs)
  constructor
  case rests =>
    intro task activity known others
    obtain ⟨different, known⟩ := (unfinished task activity).mp known
    exact sound.rests_settle pending o known fun runs => others ((goes task).mpr ⟨runs, different⟩)
  case ready =>
    intro task member
    obtain ⟨others, activity, known⟩ := ready task member
    exact ⟨fun runs => others ((goes task).mp runs).1, activity,
      (unfinished task activity).mpr ⟨other known others, known⟩⟩
  case watched =>
    intro target task member
    rw [watchers_settle] at member
    split at member
    · cases member
    · obtain ⟨others, activity, known, waits⟩ := sound.watched target task member
      exact ⟨fun runs => others ((goes task).mp runs).1, activity,
        (unfinished task activity).mpr ⟨other known others, known⟩, waits⟩
  case settled =>
    intro target ended
    rw [watchers_settle]
    split
    · rfl
    · next different =>
      rw [isDone_iff, outcome?_settle, if_neg different, ← isDone_iff] at ended
      exact sound.settled target ended
  case alone =>
    intro first second activity found target known known'
    exact sound.alone first second activity found target ((unfinished first activity).mp known).2
      ((unfinished second found).mp known').2
  case readyReleases => exact lone.ready
  case watchedReleases => exact lone.watched
  case timed => exact lone.timed
  case calm =>
    intro waiter failure bare
    rw [bare_settle] at bare
    rw [outcome?_settle]
    split
    · next here => exact fun same => succeeds (here.1 ▸ bare) failure (Option.some.inj same)
    · exact sound.calm waiter failure bare
  case runs =>
    intro task current
    obtain ⟨runs, different⟩ := (goes task).mp current
    obtain ⟨activity, known, waits⟩ := sound.runs task runs
    exact ⟨activity, (unfinished task activity).mpr ⟨different, known⟩, waits⟩

theorem Sound.settle (sound : loop.Sound running) {id : Nat} (bare : loop.Bare id) {o : Outcome}
    (succeeds : ∀ failure, o ≠ .failed failure) : (loop.settle id o).Sound running := by
  by_cases pending : loop.isPending id = true
  · refine sound.settle_of_idle pending (Or.inl bare)
      (fun task => ⟨fun runs => ⟨runs, ?_⟩, And.left⟩) fun _ => succeeds
    obtain ⟨activity, known, -⟩ := sound.runs task runs
    exact known.ne_of_bare bare
  · rw [settle_of_not_pending loop o pending]
    exact sound

/-- The one who waited for the task is awake now. -/
theorem Sound.finish {task : Nat} (sound : loop.Sound (some task)) (o : Outcome) :
    (loop.settle task o).Sound none := by
  obtain ⟨activity, known, -⟩ := sound.runs task rfl
  refine sound.settle_of_idle known.pending (Or.inr rfl) (fun other => ⟨nofun, fun given => ?_⟩)
    fun bare => absurd rfl (known.ne_of_bare bare)
  exact absurd (Option.some.inj given.1).symm given.2

/-! Nothing but releases of bare futures is added. -/

theorem count_wake_of_releases {handles : List Handle} {bare : Nat → Prop}
    (releases : ∀ handle ∈ handles, ∃ waiter, handle = .release waiter ∧ bare waiter) (task : Nat) :
    handles.count (.wake task) = 0 := by
  refine List.count_eq_zero.mpr fun member => ?_
  obtain ⟨waiter, same, -⟩ := releases _ member
  cases same

theorem Sound.grown {old new : Loop π} (sound : old.Sound running) (grown : Grown old new) :
    new.Sound running := by
  obtain ⟨more, ready, releases⟩ := grown.ready
  have lone := sound.lone.grown grown
  constructor
  case rests =>
    intro task activity unfinished other
    have noted := count_wake_of_releases releases task
    rcases sound.rests task activity ((grown.unfinished task activity).mp unfinished) other with
      awake | ⟨absent, heedful, target, waits, pending, watched⟩
    · left
      refine ⟨by rw [ready, List.count_append, awake.1, noted], fun target waits => ?_⟩
      rw [grown.isDone]
      exact awake.2 target waits
    · right
      obtain ⟨extra, watchers, -, extraReleases⟩ := grown.watchers target
      have unnoted := count_wake_of_releases extraReleases task
      exact ⟨by rw [ready, List.count_append, absent, noted], heedful, target, waits,
        grown.isPending pending, by rw [watchers, List.count_append, watched, unnoted]⟩
  case ready =>
    intro task member
    rw [ready] at member
    rcases List.mem_append.mp member with known | added
    · obtain ⟨other, activity, unfinished⟩ := sound.ready task known
      exact ⟨other, activity, (grown.unfinished task activity).mpr unfinished⟩
    · obtain ⟨waiter, same, -⟩ := releases _ added
      cases same
  case watched =>
    intro target task member
    obtain ⟨extra, watchers, -, extraReleases⟩ := grown.watchers target
    rw [watchers] at member
    rcases List.mem_append.mp member with known | added
    · obtain ⟨other, activity, unfinished, waits⟩ := sound.watched target task known
      exact ⟨other, activity, (grown.unfinished task activity).mpr unfinished, waits⟩
    · obtain ⟨waiter, same, -⟩ := extraReleases _ added
      cases same
  case settled =>
    intro target ended
    rw [grown.isDone] at ended
    obtain ⟨extra, watchers, nothing, -⟩ := grown.watchers target
    rw [watchers, sound.settled target ended, nothing ended]
    rfl
  case alone =>
    intro first second activity other target unfinished unfinished'
    rw [grown.unfinished] at unfinished unfinished'
    exact sound.alone first second activity other target unfinished unfinished'
  case readyReleases => exact lone.ready
  case watchedReleases => exact lone.watched
  case timed => exact lone.timed
  case calm =>
    intro waiter failure bare
    rw [grown.outcome]
    by_cases known : waiter < old.futures.length
    · exact sound.calm waiter failure ⟨known, (grown.activity waiter).symm.trans bare.2⟩
    · rw [outcome?_of_length_le old (Nat.le_of_not_lt known)]
      nofun
  case runs =>
    intro task current
    obtain ⟨activity, unfinished, waits⟩ := sound.runs task current
    exact ⟨activity, (grown.unfinished task activity).mpr unfinished, waits⟩

/-! A task is told to be cancelled. -/

/-- Only a task that sleeps on something must not be told. -/
theorem Sound.requestCancel (sound : loop.Sound running) {id : Nat}
    (unslept : ∀ activity target, loop.Unfinished id activity →
      activity.waitingFor = some target → loop.isPending target ≠ true) :
    (loop.requestCancel id).Sound running := by
  have told {task : Nat} {activity : Activity π} (known : loop.Unfinished task activity) :=
    (unfinished_requestCancel id task _).mpr ⟨activity, known, rfl⟩
  have lone := sound.lone.requestCancel id
  constructor
  case rests =>
    intro task activity unfinished other
    obtain ⟨before, known, rfl⟩ := (unfinished_requestCancel id task activity).mp unfinished
    rcases sound.rests task before known other with awake | asleep
    · left
      refine ⟨awake.1, fun target waits => ?_⟩
      rw [waitingFor_ite] at waits
      rw [isDone_requestCancel]
      exact awake.2 target waits
    · by_cases same : task = id
      · subst same
        obtain ⟨-, -, target, waits, pending, -⟩ := asleep
        exact absurd pending (unslept before target known waits)
      · right
        rw [if_neg same]
        obtain ⟨absent, heedful, target, waits, pending, noted⟩ := asleep
        refine ⟨absent, heedful, target, waits, ?_, by simpa using noted⟩
        rwa [isPending_congr (length_requestCancel loop id) (outcome?_requestCancel loop id target)]
  case ready =>
    intro task member
    obtain ⟨other, activity, unfinished⟩ := sound.ready task member
    exact ⟨other, _, told unfinished⟩
  case watched =>
    intro target task member
    rw [watchers_requestCancel] at member
    obtain ⟨other, activity, unfinished, waits⟩ := sound.watched target task member
    exact ⟨other, _, told unfinished, by rwa [waitingFor_ite]⟩
  case settled =>
    intro target ended
    rw [isDone_requestCancel] at ended
    rw [watchers_requestCancel]
    exact sound.settled target ended
  case alone =>
    intro first second activity other target unfinished unfinished' waits waits'
    obtain ⟨before, known, rfl⟩ := (unfinished_requestCancel id first activity).mp unfinished
    obtain ⟨before', known', rfl⟩ := (unfinished_requestCancel id second other).mp unfinished'
    rw [waitingFor_ite] at waits waits'
    exact sound.alone first second before before' target known known' waits waits'
  case readyReleases => exact lone.ready
  case watchedReleases => exact lone.watched
  case timed => exact lone.timed
  case calm =>
    intro waiter failure bare
    rw [bare_requestCancel] at bare
    rw [outcome?_requestCancel]
    exact sound.calm waiter failure bare
  case runs =>
    intro task current
    obtain ⟨activity, unfinished, waits⟩ := sound.runs task current
    exact ⟨_, told unfinished, by rwa [waitingFor_ite]⟩

theorem Sound.cancelled {root : Nat} {new : Loop π} (sound : loop.Sound running)
    (step : Cancelled loop root new) : new.Sound running := by
  cases step with
  | nothing => exact sound
  | waiter id bare _ _ => exact sound.settle bare nofun
  | task id activity _ unfinished unslept =>
    refine sound.requestCancel fun other target known => ?_
    cases unfinished.unique known
    exact unslept target

/-! A new task. -/

theorem Sound.spawn (sound : loop.Sound running) (phase : π) : (loop.spawn phase).2.Sound running := by
  have ready : (loop.spawn phase).2.ready = loop.ready ++ [.wake loop.futures.length] := rfl
  have isDone (target : Nat) : (loop.spawn phase).2.isDone target = loop.isDone target := by
    simp [Loop.isDone]
  have kept {task : Nat} {activity : Activity π} (known : loop.Unfinished task activity) :=
    (unfinished_spawn phase task activity).mpr (Or.inr known)
  have lone := sound.lone.spawn phase
  constructor
  case rests =>
    intro task activity unfinished other
    rcases (unfinished_spawn phase task activity).mp unfinished with ⟨rfl, rfl⟩ | known
    · left
      have absent : loop.ready.count (.wake loop.futures.length) = 0 := by
        refine List.count_eq_zero.mpr fun member => ?_
        obtain ⟨-, activity, found⟩ := sound.ready _ member
        exact Nat.lt_irrefl _ found.lt
      exact ⟨by rw [ready, List.count_append, absent]; simp, by simp⟩
    · have counts : (loop.spawn phase).2.ready.count (.wake task) = loop.ready.count (.wake task) := by
        rw [ready, List.count_append, List.count_singleton]
        simp [Nat.ne_of_gt known.lt]
      rcases sound.rests task activity known other with awake | asleep
      · refine Or.inl ⟨counts.trans awake.1, fun target waits => ?_⟩
        exact (isDone target).trans (awake.2 target waits)
      · obtain ⟨absent, heedful, target, waits, pending, noted⟩ := asleep
        refine Or.inr ⟨counts.trans absent, heedful, target, waits, ?_, by simpa using noted⟩
        rw [isPending_iff] at pending ⊢
        rw [length_spawn, outcome?_spawn]
        exact ⟨Nat.lt_succ_of_lt pending.1, pending.2⟩
  case ready =>
    intro task member
    rw [ready] at member
    rcases List.mem_append.mp member with known | new
    · obtain ⟨other, activity, unfinished⟩ := sound.ready task known
      exact ⟨other, activity, kept unfinished⟩
    · obtain rfl : task = loop.futures.length := by simpa using new
      refine ⟨fun current => ?_, _, (unfinished_spawn phase _ _).mpr (Or.inl ⟨rfl, rfl⟩)⟩
      obtain ⟨activity, unfinished, -⟩ := sound.runs _ current
      exact Nat.lt_irrefl _ unfinished.lt
  case watched =>
    intro target task member
    rw [watchers_spawn] at member
    obtain ⟨other, activity, unfinished, waits⟩ := sound.watched target task member
    exact ⟨other, activity, kept unfinished, waits⟩
  case settled =>
    intro target ended
    rw [isDone] at ended
    rw [watchers_spawn]
    exact sound.settled target ended
  case alone =>
    intro first second activity other target unfinished unfinished' waits waits'
    rcases (unfinished_spawn phase first activity).mp unfinished with ⟨-, rfl⟩ | known
    · cases waits
    · rcases (unfinished_spawn phase second other).mp unfinished' with ⟨-, rfl⟩ | known'
      · cases waits'
      · exact sound.alone first second activity other target known known' waits waits'
  case readyReleases => exact lone.ready
  case watchedReleases => exact lone.watched
  case timed => exact lone.timed
  case calm =>
    intro waiter failure bare
    rw [bare_spawn] at bare
    rw [outcome?_spawn]
    exact sound.calm waiter failure bare
  case runs =>
    intro task current
    obtain ⟨activity, unfinished, waits⟩ := sound.runs task current
    exact ⟨activity, kept unfinished, waits⟩

/-! The loop takes the first handle. -/

theorem Sound.drop_release {waiter : Nat} {rest : List Handle} (sound : loop.Sound running)
    (first : loop.ready = .release waiter :: rest) : ({ loop with ready := rest }).Sound running := by
  have counts (task : Nat) : loop.ready.count (.wake task) = rest.count (.wake task) := by
    rw [first]
    exact List.count_cons_of_ne (by simp)
  have later {handle : Handle} (member : handle ∈ rest) : handle ∈ loop.ready := by
    rw [first]
    exact List.mem_cons_of_mem _ member
  exact { sound with
    rests := fun task activity unfinished other =>
      (sound.rests task activity unfinished other).imp
        (fun awake => ⟨(counts task).symm.trans awake.1, awake.2⟩)
        fun asleep => ⟨(counts task).symm.trans asleep.1, asleep.2⟩
    ready := fun task member => sound.ready task (later member)
    readyReleases := fun waiter member => sound.readyReleases waiter (later member) }

/-- The task that is woken first has nothing to wait for, and then nothing else notes it. -/
theorem Sound.wake {task : Nat} {rest : List Handle} (sound : loop.Sound none)
    (first : loop.ready = .wake task :: rest) : ∃ activity, loop.Unfinished task activity ∧
      (∀ target, activity.waitingFor = some target → loop.isDone target = true) ∧
      (loop.wakeFirst rest task activity.phase).Sound (some task) := by
  obtain ⟨-, activity, known⟩ := sound.ready task (first ▸ List.mem_cons_self ..)
  have awake : loop.Awake task activity := by
    rcases sound.rests task activity known nofun with awake | asleep
    · exact awake
    · have absent := asleep.1
      rw [first, List.count_cons_self] at absent
      cases absent
  have absent : .wake task ∉ rest := by
    have once := awake.1
    rw [first, List.count_cons_self] at once
    exact List.count_eq_zero.mp (Nat.succ.inj once)
  have later {handle : Handle} (member : handle ∈ rest) : handle ∈ loop.ready := by
    rw [first]
    exact List.mem_cons_of_mem _ member
  have unfinished := unfinished_wakeFirst rest known activity.phase
  have isDone := isDone_wakeFirst loop rest task activity.phase
  have watchers := watchers_wakeFirst loop rest task activity.phase
  have lone : (loop.wakeFirst rest task activity.phase).Lone := by
    refine sound.lone.of_same (fun _ member => Or.inl (later member)) (fun target _ member => Or.inl ?_) rfl
      fun id => (bare_wakeFirst known _ id).mpr
    exact watchers target ▸ member
  have kept {other : Nat} (different : other ≠ task) {found : Activity π}
      (old : loop.Unfinished other found) := (unfinished other found).mpr (Or.inr ⟨different, old⟩)
  refine ⟨activity, known, awake.2, ?_⟩
  constructor
  case rests =>
    intro other found rests others
    rcases (unfinished other found).mp rests with ⟨rfl, -⟩ | ⟨different, old⟩
    · exact absurd rfl others
    · have counts : loop.ready.count (.wake other) = rest.count (.wake other) := by
        rw [first]
        exact List.count_cons_of_ne (by simpa using Ne.symm different)
      rcases sound.rests other found old nofun with found | asleep
      · refine Or.inl ⟨counts.symm.trans found.1, fun target waits => ?_⟩
        exact (isDone target).trans (found.2 target waits)
      · obtain ⟨none, heedful, target, waits, pending, noted⟩ := asleep
        refine Or.inr ⟨counts.symm.trans none, heedful, target, waits, ?_, by rwa [watchers]⟩
        rwa [isPending_wakeFirst]
  case ready =>
    intro other member
    have different : other ≠ task := fun same => absent (same ▸ member)
    obtain ⟨-, found, old⟩ := sound.ready other (later member)
    exact ⟨by simpa using Ne.symm different, found, kept different old⟩
  case watched =>
    intro target other member
    rw [watchers] at member
    obtain ⟨-, found, old, waits⟩ := sound.watched target other member
    have different : other ≠ task := by
      intro same
      subst same
      cases known.unique old
      rw [sound.settled target (awake.2 target waits)] at member
      cases member
    exact ⟨by simpa using Ne.symm different, found, kept different old, waits⟩
  case settled =>
    intro target ended
    rw [isDone] at ended
    rw [watchers]
    exact sound.settled target ended
  case alone =>
    intro one two found other target rests rests' waits waits'
    rcases (unfinished one found).mp rests with ⟨-, rfl⟩ | ⟨-, old⟩
    · cases waits
    · rcases (unfinished two other).mp rests' with ⟨-, rfl⟩ | ⟨-, old'⟩
      · cases waits'
      · exact sound.alone one two found other target old old' waits waits'
  case readyReleases => exact lone.ready
  case watchedReleases => exact lone.watched
  case timed => exact lone.timed
  case calm =>
    intro waiter failure bare
    rw [bare_wakeFirst known] at bare
    rw [outcome?_wakeFirst]
    exact sound.calm waiter failure bare
  case runs =>
    intro _ never
    cases never
    exact ⟨_, (unfinished task _).mpr (Or.inl ⟨rfl, rfl⟩), rfl⟩

/-! The running task waits again. -/

/-- What the task waits for now is pending, and nobody else waits for it. -/
theorem Sound.park {task target : Nat} (sound : loop.Sound (some task))
    (pending : loop.isPending target = true)
    (free : ∀ other found, loop.Unfinished other found → found.waitingFor ≠ some target) (phase : π) :
    (loop.park task phase target).Sound none := by
  obtain ⟨activity, known, idle⟩ := sound.runs task rfl
  have ready := ready_park pending task phase
  have watchers := watchers_park pending task phase
  have isDone (id : Nat) : (loop.park task phase target).isDone id = loop.isDone id := by
    simp [Loop.isDone, outcome?_park]
  have isPending (id : Nat) : (loop.park task phase target).isPending id = loop.isPending id :=
    isPending_congr (length_park task phase target) (outcome?_park task phase target id)
  have unfinished := unfinished_park known phase target
  have kept {other : Nat} (others : some task ≠ some other) {found : Activity π}
      (old : loop.Unfinished other found) : (loop.park task phase target).Unfinished other found :=
    (unfinished other found).mpr (Or.inr ⟨fun same => others (congrArg some same.symm), old⟩)
  have noted {id : Nat} {handle : Handle} (member : handle ∈ (loop.park task phase target).watchers id) :
      handle ∈ loop.watchers id ∨ id = target ∧ handle = .wake task := by
    rw [watchers] at member
    split at member
    · next same =>
      subst same
      simpa using member
    · exact Or.inl member
  have lone : (loop.park task phase target).Lone := by
    refine sound.lone.of_same (fun _ member => Or.inl (ready ▸ member))
      (fun id _ member => (noted member).imp_right fun here => ⟨task, here.2⟩) ?_
      fun id => (bare_park known phase target id).mpr
    simp [Loop.park, setActivity, modifyFuture]
  constructor
  case rests =>
    intro other found rests _
    rcases (unfinished other found).mp rests with ⟨rfl, rfl⟩ | ⟨different, old⟩
    · right
      refine ⟨?_, rfl, target, rfl, by rwa [isPending], ?_⟩
      · rw [ready]
        exact List.count_eq_zero.mpr fun member => (sound.ready other member).1 rfl
      · have absent : (loop.watchers target).count (.wake other) = 0 :=
          List.count_eq_zero.mpr fun member => (sound.watched target other member).1 rfl
        rw [watchers, if_pos rfl, List.count_append, absent]
        simp
    · rcases sound.rests other found old (by simpa using Ne.symm different) with awake | asleep
      · left
        exact ⟨by rw [ready]; exact awake.1,
          fun id waits => (isDone id).trans (awake.2 id waits)⟩
      · right
        obtain ⟨absent, heedful, id, waits, sleeping, noted⟩ := asleep
        refine ⟨by rw [ready]; exact absent, heedful, id, waits, by rwa [isPending], ?_⟩
        have elsewhere : id ≠ target := fun same => free other found old (same ▸ waits)
        rwa [watchers, if_neg elsewhere]
  case ready =>
    intro other member
    rw [ready] at member
    obtain ⟨others, found, old⟩ := sound.ready other member
    exact ⟨(Option.some_ne_none other).symm, found, kept others old⟩
  case watched =>
    intro id other member
    rcases noted member with old | ⟨rfl, same⟩
    · obtain ⟨others, found, rests, waits⟩ := sound.watched id other old
      exact ⟨(Option.some_ne_none other).symm, found, kept others rests, waits⟩
    · cases same
      exact ⟨(Option.some_ne_none task).symm, _, (unfinished task _).mpr (Or.inl ⟨rfl, rfl⟩), rfl⟩
  case settled =>
    intro id ended
    rw [isDone] at ended
    have other : id ≠ target := by
      intro same
      subst same
      exact not_done_of_pending pending ended
    rw [watchers, if_neg other]
    exact sound.settled id ended
  case alone =>
    intro one two found other id rests rests' waits waits'
    rcases (unfinished one found).mp rests with ⟨rfl, rfl⟩ | ⟨-, old⟩
    · rcases (unfinished two other).mp rests' with ⟨rfl, -⟩ | ⟨-, old'⟩
      · rfl
      · cases waits
        exact absurd waits' (free two other old')
    · rcases (unfinished two other).mp rests' with ⟨rfl, rfl⟩ | ⟨-, old'⟩
      · cases waits'
        exact absurd waits (free one found old)
      · exact sound.alone one two found other id old old' waits waits'
  case readyReleases => exact lone.ready
  case watchedReleases => exact lone.watched
  case timed => exact lone.timed
  case calm =>
    intro waiter failure bare
    rw [bare_park known] at bare
    rw [outcome?_park]
    exact sound.calm waiter failure bare
  case runs =>
    intro _ never
    cases never

end InlineCompletion.Loop
