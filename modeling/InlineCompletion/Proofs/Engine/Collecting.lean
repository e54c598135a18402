import InlineCompletion.Proofs.Engine.Progress

/-!
A task that collects a stream, whatever its source does, while the loop, the clock and the client go
on. It has yet to begin, or it waits for one read, or it is over, and nobody else does anything.
-/

namespace InlineCompletion

/-- The loop, the clock, the client and its sources go on; nobody is cancelled and nothing aborted. -/
def Move.passive : Move → Bool
  | .turn | .fireTimers | .pass _ | .openGate | .closeGate | .proceed _ | .script .. | .rescript .. =>
    true
  | _ => false

/-- How far one who collects a stream has come. -/
inductive Spot where
  | fresh
  | reading (pieces : List Text) (read : Nat)
  | finished (outcome : Outcome)

namespace Spot

def read? : Spot → Option Nat
  | .reading _ read => some read
  | _ => none

/-- The collector, which is the first task, stands here. -/
def Holds (loop : Loop Phase) : Spot → Prop
  | .fresh => loop.Unfinished 0 { phase := .start (.collect 0) }
  | .reading pieces read =>
    loop.Unfinished 0 { phase := .reading 0 (.collect pieces), waitingFor := some read } ∧
      read ≠ 0 ∧ ∃ activity, loop.activity? read = some activity
  | .finished outcome => loop.outcome? 0 = some outcome

end Spot

namespace Engine

open Loop (Stirred Grown)

variable {engine old new : Engine} {env : Environment} {aborted : Bool} {spot : Spot}
  {running pending : Option Nat} {task read : Nat} {pieces : List Text}

/-- A stream with this source, and a task that is to collect it. -/
def collecting (client : Client) (source : Source) (reported : Bool) : Engine :=
  (({ client := client.unused, streams := [{ source, reported }] } : Engine).spawn (.collect 0)).2

/-- The task reads the stream. -/
def Pulls (engine : Engine) (activity : Activity Phase) : Prop :=
  (activity.phase = .start (.pull 0) ∧ activity.waitingFor = none) ∨
    (activity.phase = .pulling 0 ∧ engine.Held activity)

structure Tidy (engine : Engine) (running : Option Nat) (aborted : Bool) (pending : Option Nat) :
    Prop where
  sound : engine.loop.Sound running
  gate : ∀ waiter ∈ engine.client.gateWaiters, engine.loop.Bare waiter
  open_gate : engine.client.gateOpen = true → engine.client.gateWaiters = []
  stream : ∃ found, engine.streams[0]? = some found ∧ found.aborted = aborted ∧
    found.pending = pending

/-- The collector has come so far, and only its read goes on beside it. -/
structure Stands (engine : Engine) (aborted : Bool) (spot : Spot) : Prop
    extends Tidy engine none aborted spot.read? where
  here : spot.Holds engine.loop
  others : ∀ task activity, engine.loop.Unfinished task activity → task ≠ 0 →
    spot.read? = some task ∧ engine.Pulls activity

/-! Nobody runs. -/

theorem Held.stirred {struck : Nat → Prop} {loop : Loop Phase}
    (stirred : Stirred struck engine.loop loop) {activity : Activity Phase}
    (held : engine.Held activity) : ({ engine with loop } : Engine).Held activity := by
  obtain ⟨waiter, waits, bare, stands⟩ := held
  exact ⟨waiter, waits, stirred.bare bare, fun pending => stands (stirred.isPending bare.1 pending)⟩

/-- Whatever happens to bare futures, nobody is told of it but the read. -/
theorem Stands.stirred (stands : Stands engine aborted spot) {loop : Loop Phase}
    (stirred : Stirred (fun task => spot.read? = some task) engine.loop loop)
    (sound : loop.Sound none)
    (unborn : ∀ id, engine.loop.futures.length ≤ id → loop.activity? id = none) :
    Stands { engine with loop } aborted spot := by
  refine ⟨⟨sound, fun waiter member => stirred.bare (stands.gate waiter member), stands.open_gate,
    stands.stream⟩, ?_, fun task activity unfinished other => ?_⟩
  · have here := stands.here
    have kept {activity : Activity Phase} (known : engine.loop.Unfinished 0 activity)
        (apart : spot.read? ≠ some 0) : loop.Unfinished 0 activity := by
      have same := (stirred.activity 0 known.lt).resolve_right fun hit => apart hit.1
      exact ⟨same.trans known.1, (stirred.task known.1).trans known.2⟩
    cases spot with
    | fresh => exact kept here nofun
    | reading pieces read =>
      obtain ⟨known, other, activity, reads⟩ := here
      refine ⟨kept known fun same => other (Option.some.inj same), other, ?_⟩
      rcases stirred.activity read (Loop.lt_of_activity? _ reads) with same | ⟨-, told⟩
      · exact ⟨activity, same.trans reads⟩
      · exact ⟨_, told.trans (congrArg _ reads)⟩
    | finished outcome => exact stirred.ended here
  · have known : task < engine.loop.futures.length := by
      refine Nat.lt_of_not_le fun outside => ?_
      cases unfinished.1.symm.trans (unborn task outside)
    obtain ⟨found, unfinished', phase, waiting, -⟩ := stirred.before known unfinished
    obtain ⟨reads, pulls⟩ := stands.others task found unfinished' other
    refine ⟨reads, pulls.imp (fun begins => ⟨phase.trans begins.1, waiting.trans begins.2⟩)
      fun sleeps => ⟨phase.trans sleeps.1, (Held.stirred stirred sleeps.2).congr waiting⟩⟩

theorem Stands.grown (stands : Stands engine aborted spot) {loop : Loop Phase}
    (grown : Grown engine.loop loop) : Stands { engine with loop } aborted spot := by
  refine stands.stirred (grown.stirred.mono fun _ => False.elim) (stands.sound.grown grown)
    fun id outside => ?_
  rw [grown.activity, Loop.activity?_of_length_le _ outside]

theorem Stands.settle (stands : Stands engine aborted spot) {waiter : Nat}
    (bare : engine.loop.Bare waiter) :
    Stands (engine.withLoop (·.settle waiter (.value .nothing))) aborted spot := by
  have calm : ∀ failure, Outcome.value .nothing ≠ .failed failure := nofun
  have settled : Stirred (fun _ => False) engine.loop
      (engine.loop.settle waiter (.value .nothing)) := Loop.stirred_settle bare calm nofun
  refine stands.stirred (settled.mono fun _ => False.elim) (stands.sound.settle bare calm)
    fun id outside => ?_
  rw [Loop.activity?_settle, Loop.activity?_of_length_le _ outside]

theorem Stands.settleAll (stands : Stands engine aborted spot) {waiters : List Nat}
    (bare : ∀ waiter ∈ waiters, engine.loop.Bare waiter) :
    Stands (engine.withLoop fun loop =>
      waiters.foldl (fun l waiter => l.settle waiter (.value .nothing)) loop) aborted spot := by
  induction waiters generalizing engine with
  | nil => exact stands
  | cons waiter rest ih =>
    refine ih (stands.settle (bare waiter (List.mem_cons_self ..))) fun other member => ?_
    exact (Loop.bare_settle waiter other _).mpr (bare other (List.mem_cons_of_mem _ member))

/-- The client and the source change, but nobody who still waits is forgotten at the gate. -/
theorem Stands.congr (stands : Stands engine aborted spot) (loop : new.loop = engine.loop)
    (streams : new.streams.map Stream.shell = engine.streams.map Stream.shell)
    (fewer : ∀ waiter ∈ new.client.gateWaiters, waiter ∈ engine.client.gateWaiters)
    (gone : ∀ waiter ∈ engine.client.gateWaiters, engine.loop.isPending waiter = true →
      waiter ∈ new.client.gateWaiters)
    (open_gate : new.client.gateOpen = true → new.client.gateWaiters = []) :
    Stands new aborted spot := by
  obtain ⟨found, known, same, waits⟩ := stands.stream
  refine ⟨⟨loop ▸ stands.sound, fun waiter member => ?_, open_gate, ?_⟩, loop ▸ stands.here,
    fun task activity unfinished other => ?_⟩
  · rw [loop]
    exact stands.gate waiter (fewer waiter member)
  · have shells : (new.streams.map Stream.shell)[0]? = some found.shell := by
      rw [streams, List.getElem?_map, known]
      rfl
    rw [List.getElem?_map, Option.map_eq_some_iff] at shells
    obtain ⟨next, known', shell⟩ := shells
    obtain ⟨-, aborted', -, pending'⟩ := Stream.of_shell_eq shell
    exact ⟨next, known', aborted'.trans same, pending'.trans waits⟩
  · obtain ⟨reads, pulls⟩ := stands.others task activity (loop ▸ unfinished) other
    refine ⟨reads, pulls.imp_right fun ⟨phase, waiter, waits, bare, held⟩ => ?_⟩
    refine ⟨phase, waiter, waits, loop ▸ bare, fun pending => ?_⟩
    rw [loop] at pending
    exact gone waiter (held pending) pending

theorem Stands.openGate (stands : Stands engine aborted spot) :
    Stands engine.openGate aborted spot := by
  have settled := stands.settleAll stands.gate
  refine settled.congr rfl rfl nofun (fun waiter member pending => ?_) fun _ => rfl
  have ended := isDone_settleAll .nothing (fun other known => (stands.gate other known).1)
    (Or.inl (show waiter ∈ engine.client.gateWaiters from member))
  exact absurd ended (Loop.not_done_of_pending pending)

theorem Stands.proceed (stands : Stands engine aborted spot) (waiter : Nat) :
    Stands (engine.proceed waiter) aborted spot := by
  unfold Engine.proceed
  split
  case isFalse => exact stands
  next member =>
  have bare := stands.gate waiter member
  refine (stands.settle bare).congr rfl rfl (fun other kept => (List.mem_filter.mp kept).1)
    (fun other known pending => ?_) fun opened => ?_
  · refine List.mem_filter.mpr ⟨known, decide_eq_true fun same => ?_⟩
    subst same
    exact Loop.not_done_of_pending pending (isDone_settle bare.1 _)
  · have none : engine.client.gateWaiters = [] := stands.open_gate opened
    show engine.client.gateWaiters.filter _ = []
    rw [none]
    rfl

/-! A task runs, and then it waits again or is over. -/

theorem conclude_done_frame (task : Nat) (engine : Engine) (result : Outcome) :
    (conclude task (engine, .done result)).client = engine.client ∧
      (conclude task (engine, .done result)).streams = engine.streams := by
  unfold conclude
  dsimp only
  split
  · split <;> exact ⟨rfl, rfl⟩
  · exact ⟨rfl, rfl⟩

theorem Tidy.done (tidy : Tidy engine (some task) aborted pending) (result : Outcome) :
    Tidy (conclude task (engine, .done result)) none aborted pending := by
  have loop := loop_conclude_done task engine result
  obtain ⟨client, streams⟩ := conclude_done_frame task engine result
  refine ⟨loop ▸ tidy.sound.finish result, fun waiter member => ?_, client ▸ tidy.open_gate,
    streams ▸ tidy.stream⟩
  rw [loop, Loop.bare_settle]
  exact tidy.gate waiter (client ▸ member)

theorem Tidy.wait (tidy : Tidy engine (some task) aborted pending) {target : Nat}
    (sleeps : engine.loop.isPending target = true)
    (free : ∀ other found, engine.loop.Unfinished other found → found.waitingFor ≠ some target)
    (phase : Phase) : Tidy (conclude task (engine, .wait target phase)) none aborted pending := by
  obtain ⟨activity, known, -⟩ := tidy.sound.runs task rfl
  refine ⟨tidy.sound.park sleeps free phase, fun waiter member => ?_, tidy.open_gate, tidy.stream⟩
  exact (Loop.bare_park known phase target waiter).mpr (tidy.gate waiter member)

theorem Tidy.alike (tidy : Tidy engine running aborted pending) (alike : Alike engine new) :
    Tidy new running aborted pending := by
  obtain ⟨found, known, same, waits⟩ := tidy.stream
  obtain ⟨next, known', shell⟩ := alike.stream known
  obtain ⟨-, aborted', -, pending'⟩ := Stream.of_shell_eq shell
  refine ⟨alike.loop ▸ tidy.sound, fun waiter member => ?_, fun opened => ?_,
    ⟨next, known', aborted'.trans same, pending'.trans waits⟩⟩
  · rw [alike.loop]
    exact tidy.gate waiter (alike.gateWaiters ▸ member)
  · rw [alike.gateWaiters]
    exact tidy.open_gate (alike.open_gate opened)

/-- Nobody waits for what has just been numbered. -/
theorem free_of_length_le {loop : Loop Phase} (sound : loop.Sound running) {target : Nat}
    (fresh : loop.futures.length ≤ target) (other : Nat) (found : Activity Phase)
    (unfinished : loop.Unfinished other found) : found.waitingFor ≠ some target := by
  intro waits
  exact absurd (sound.target_lt unfinished waits) (Nat.not_lt_of_le fresh)

/-! The read. -/

theorem Pulls.wake {activity other : Activity Phase} (pulls : engine.Pulls activity)
    (known : engine.loop.Unfinished task other) (rest : List Handle) :
    ({ engine with loop := engine.loop.wakeFirst rest task other.phase } : Engine).Pulls activity := by
  refine pulls.imp_right fun ⟨phase, waiter, waits, bare, held⟩ => ⟨phase, waiter, waits, ?_, ?_⟩
  · exact (Loop.bare_wakeFirst known other.phase waiter).mpr bare
  · intro pending
    rw [Loop.isPending_wakeFirst] at pending
    exact held pending

/-- What a read comes to when it runs: it ends, or it waits at the closed gate. -/
inductive Tugs (old : Engine) : Step → Prop where
  | ends (new : Engine) (outcome : Outcome) (alike : Alike old new) : Tugs old (new, .done outcome)
  | waits (new : Engine) (alike : Alike old new) (closed : new.client.gateOpen = false) :
    Tugs old (new.awaitGate (.pulling 0))

theorem tugs_pullSource (alike : Alike old engine) : Tugs old (engine.pullSource 0) := by
  unfold pullSource
  split
  · exact .ends engine _ alike
  · split
    · exact .ends _ _ (alike.trans (alike_modifySource ..))
    · next actions blocked =>
      exact .waits _ (alike.trans (alike_modifySource ..)) (Client.pull_blocked blocked)

theorem tugs_resume (env : Environment) {activity : Activity Phase} (pulls : old.Pulls activity)
    (outcome : Outcome) : Tugs old (old.resume env activity.phase outcome) := by
  have same : Alike old old :=
    ⟨rfl, rfl, fun known => known, rfl, rfl, rfl, rfl, rfl, fun _ member => member⟩
  rcases pulls with ⟨phase, -⟩ | ⟨phase, -⟩
  · rw [phase]
    cases outcome with
    | failed | cancelled => exact .ends old _ same
    | value v =>
      show Tugs old (old.startPull 0)
      unfold startPull
      split
      · exact .ends old _ same
      · exact tugs_pullSource (alike_openSource old 0)
  · rw [phase]
    show Tugs old (old.resumePull 0 outcome)
    unfold resumePull
    split
    · exact tugs_pullSource same
    · split
      · exact tugs_pullSource same
      · exact .ends _ _ (alike_modifySource ..)

/-- A cancellation ends the read, if the client minds it. -/
theorem resume_of_cancelled (env : Environment) {activity : Activity Phase}
    (pulls : old.Pulls activity) (heeds : old.client.heedless = false) :
    (old.resume env activity.phase .cancelled).2 = .done .cancelled := by
  rcases pulls with ⟨phase, -⟩ | ⟨phase, -⟩
  · rw [phase]
    rfl
  · rw [phase]
    show (old.resumePull 0 .cancelled).2 = _
    simp [resumePull, heeds]

/-- Only the read and the one who waits for it are not over. -/
structure Fetches (engine : Engine) (pieces : List Text) (read : Nat) : Prop where
  waits : engine.loop.Unfinished 0 { phase := .reading 0 (.collect pieces), waitingFor := some read }
  other : read ≠ 0
  alone : ∀ task activity, engine.loop.Unfinished task activity → task ≠ 0 → task = read

/-- The read has run: it is over, or the client holds it back. -/
theorem Stands.fetched (tidy : Tidy engine (some read) aborted (some read))
    (fetches : Fetches engine pieces read) {step : Step} (tugs : Tugs engine step) :
    Stands (conclude read step) aborted (.reading pieces read) ∧
      ((conclude read step).loop.isDone read = true ∨ HeldBack (conclude read step) 0) := by
  obtain ⟨waits, other, alone⟩ := fetches
  obtain ⟨activity, known, -⟩ := tidy.sound.runs read rfl
  cases tugs with
  | ends new outcome alike =>
    have loop := (loop_conclude_done read new outcome).trans (by rw [alike.loop])
    have finished (task : Nat) (activity : Activity Phase) :
        (conclude read (new, .done outcome)).loop.Unfinished task activity ↔
          task ≠ read ∧ engine.loop.Unfinished task activity := by
      rw [loop]
      exact Loop.unfinished_finish known outcome task activity
    refine ⟨⟨(tidy.alike alike).done outcome, ⟨(finished 0 _).mpr ⟨Ne.symm other, waits⟩, other, activity,
      ?_⟩, fun task found unfinished others => ?_⟩, Or.inl ?_⟩
    · rw [loop, Loop.activity?_settle]
      exact known.1
    · obtain ⟨apart, unfinished⟩ := (finished task found).mp unfinished
      exact absurd (alone task found unfinished others) apart
    · rw [loop]
      exact isDone_settle known.lt outcome
  | waits new alike closed =>
    have tidy' := tidy.alike alike
    have bare := Loop.bare_addFuture new.loop
    have grown := Loop.grown_addFuture new.loop
    have added : Tidy (new.awaitGate (.pulling 0)).1 (some read) aborted (some read) := by
      refine ⟨tidy'.sound.grown grown, fun waiter member => ?_, fun opened => ?_, tidy'.stream⟩
      · rcases List.mem_append.mp member with before | last
        · exact grown.bare (tidy'.gate waiter before)
        · exact List.mem_singleton.mp last ▸ bare
      · cases closed.symm.trans opened
    have known' : new.loop.addFuture.2.Unfinished read activity :=
      (grown.unfinished read activity).mpr (alike.loop ▸ known)
    have parked := Loop.unfinished_park known' (.pulling 0) new.loop.futures.length
    have free (task : Nat) (found : Activity Phase)
        (unfinished : new.loop.addFuture.2.Unfinished task found) :
        found.waitingFor ≠ some new.loop.futures.length :=
      free_of_length_le tidy'.sound (Nat.le_refl _) task found
        ((grown.unfinished task found).mp unfinished)
    have sleeps := (parked read _).mpr (Or.inl ⟨rfl, rfl⟩)
    have waits' := (parked 0 _).mpr
      (Or.inr ⟨Ne.symm other, (grown.unfinished 0 _).mpr (alike.loop ▸ waits)⟩)
    have last : new.loop.futures.length ∈ (new.awaitGate (.pulling 0)).1.client.gateWaiters :=
      List.mem_append_right _ (List.mem_singleton_self _)
    refine ⟨⟨added.wait (Loop.isPending_addFuture new.loop) free _, ⟨waits', other, _, sleeps.1⟩,
      fun task found unfinished others => ?_⟩,
      Or.inr ⟨closed, _, read, waits', rfl, Or.inr ⟨_, _, sleeps, rfl, last⟩⟩⟩
    · rcases (parked task found).mp unfinished with ⟨rfl, rfl⟩ | ⟨apart, unfinished⟩
      · refine ⟨rfl, Or.inr ⟨rfl, new.loop.futures.length, rfl, ?_, fun _ => last⟩⟩
        exact (Loop.bare_park known' (.pulling 0) _ _).mpr bare
      · have unfinished := (grown.unfinished task found).mp unfinished
        exact absurd (alone task found (alike.loop ▸ unfinished) others) apart

/-! The collector. -/

/-- Nobody but the collector, which runs, is not over. -/
structure Collects (engine : Engine) (aborted : Bool) : Prop
    extends Tidy engine (some 0) aborted none where
  alone : ∀ task activity, engine.loop.Unfinished task activity → task = 0

theorem Collects.done (collects : Collects engine aborted) (result : Outcome) :
    Stands (conclude 0 (engine, .done result)) aborted (.finished result) := by
  obtain ⟨activity, known, -⟩ := collects.sound.runs 0 rfl
  have loop := loop_conclude_done 0 engine result
  refine ⟨collects.toTidy.done result, ?_, fun task found unfinished other => ?_⟩
  · show (conclude 0 (engine, .done result)).loop.outcome? 0 = _
    rw [loop, Loop.outcome?_settle, if_pos ⟨rfl, (Loop.isPending_iff _ 0).mpr ⟨known.lt, known.2⟩⟩]
  · rw [loop] at unfinished
    have unfinished := ((Loop.unfinished_finish known result task found).mp unfinished).2
    exact absurd (collects.alone task found unfinished) other

theorem refused_collected (pieces : List Text) :
    collected pieces (.failed streamAborted) = .failed streamAborted := by
  simp [collected, streamAborted, streamEnded]

/-- The next read begins, unless there is none to begin. -/
theorem Collects.startCollect (collects : Collects engine aborted) (pieces : List Text) :
    ∃ next, Stands (conclude 0 (engine.startCollect 0 pieces)) aborted next ∧
      (aborted = true → next = .finished (.failed streamAborted)) := by
  obtain ⟨found, there, stopped, idle⟩ := collects.stream
  obtain ⟨activity, known, -⟩ := collects.sound.runs 0 rfl
  unfold Engine.startCollect beginRead
  simp only [there]
  by_cases refused : found.aborted = true
  · simp only [refused, if_true, refused_collected]
    exact ⟨_, collects.done _, fun _ => rfl⟩
  have going : aborted = false := by
    rw [← stopped]
    simpa using refused
  by_cases closed : found.closed = true
  · simp only [refused, closed, if_true]
    exact ⟨_, collects.done _, fun stopped => by cases going.symm.trans stopped⟩
  simp only [refused, closed, Bool.false_eq_true, if_false]
  refine ⟨.reading pieces engine.loop.futures.length, ?_, fun stopped => by
    cases going.symm.trans stopped⟩
  have new := unfinished_new engine (.pull 0)
  have stirred := Loop.stirred_spawn engine.loop (.start (.pull 0))
  have spawned (task : Nat) (activity : Activity Phase) :
      (engine.spawn (.pull 0)).2.loop.Unfinished task activity ↔
        (task = engine.loop.futures.length ∧ activity = { phase := .start (.pull 0) }) ∨
          engine.loop.Unfinished task activity := Loop.unfinished_spawn _ task activity
  have known' : (engine.spawn (.pull 0)).2.loop.Unfinished 0 activity :=
    (spawned 0 activity).mpr (Or.inr known)
  have parked := Loop.unfinished_park known' (.reading 0 (.collect pieces)) engine.loop.futures.length
  have other : engine.loop.futures.length ≠ 0 := Nat.ne_of_gt known.lt
  have free (task : Nat) (found : Activity Phase)
      (unfinished : (engine.spawn (.pull 0)).2.loop.Unfinished task found) :
      found.waitingFor ≠ some engine.loop.futures.length := by
    rcases (spawned task found).mp unfinished with ⟨-, rfl⟩ | before
    · nofun
    · exact free_of_length_le collects.sound (Nat.le_refl _) task found before
  have begun : Tidy ((engine.spawn (.pull 0)).2.modifyStream 0 fun s =>
      { s with pending := some engine.loop.futures.length }) (some 0) aborted
        (some engine.loop.futures.length) := by
    refine ⟨collects.sound.spawn _, fun waiter member => stirred.bare (collects.gate waiter member),
      collects.open_gate, ?_⟩
    exact ⟨_, stream_modifyStream _ 0 _ there, stopped, rfl⟩
  have reads := (parked _ _).mpr (Or.inr ⟨other, new⟩)
  refine ⟨begun.wait (isPending_spawn engine (.pull 0)) free _, ⟨?_, other, _, reads.1⟩,
    fun task found unfinished others => ?_⟩
  · exact (parked 0 _).mpr (Or.inl ⟨rfl, rfl⟩)
  · have unfinished := ((parked task found).mp unfinished).resolve_left fun same => others same.1
    rcases (spawned task found).mp unfinished.2 with ⟨rfl, rfl⟩ | before
    · exact ⟨rfl, Or.inl ⟨rfl, rfl⟩⟩
    · exact absurd (collects.alone task found before) others

theorem Tidy.reviseStream (tidy : Tidy engine running aborted pending) {f : Stream → Stream}
    {now : Bool} {still : Option Nat}
    (stopped : ∀ stream, stream.aborted = aborted → (f stream).aborted = now)
    (waits : ∀ stream, stream.pending = pending → (f stream).pending = still) :
    Tidy (engine.modifyStream 0 f) running now still := by
  obtain ⟨found, known, before, awaited⟩ := tidy.stream
  exact ⟨tidy.sound, tidy.gate, tidy.open_gate, f found, stream_modifyStream engine 0 f known,
    stopped found before, waits found awaited⟩

theorem Tidy.finishStream (tidy : Tidy engine running aborted pending) :
    Tidy (engine.finishStream 0) running aborted pending := by
  have marked := tidy.reviseStream (f := fun s => { s with closed := true })
    (fun _ same => same) fun _ same => same
  have told := tidy.reviseStream (f := fun s => { s with closed := true, reports := s.reports + 1 })
    (fun _ same => same) fun _ same => same
  unfold Engine.finishStream
  split
  · exact tidy
  · split
    · exact tidy
    · split
      · exact ⟨told.sound, told.gate, told.open_gate, told.stream⟩
      · exact marked

/-- What one who collects is given when the stream has been aborted, by how the last read ended. -/
def outrun (pieces : List Text) : Outcome → Outcome
  | .cancelled | .value (.text _) => .failed streamAborted
  | .value .drained => .value (.text pieces.flatten)
  | outcome => collected pieces outcome

/-- The collector goes on with what it read. -/
theorem Tidy.resumeReading (env : Environment) (tidy : Tidy engine (some 0) aborted pending)
    (alone : ∀ task activity, engine.loop.Unfinished task activity → task = 0)
    (pieces : List Text) (outcome : Outcome) : ∃ next,
      Stands (conclude 0 (engine.resumeReading env 0 (.collect pieces) outcome)) aborted next ∧
        (aborted = true → next = .finished (outrun pieces outcome)) := by
  have freed : Collects (engine.modifyStream 0 fun s => { s with pending := none }) aborted :=
    ⟨tidy.reviseStream (fun _ same => same) fun _ _ => rfl, alone⟩
  have finished : Collects ((engine.modifyStream 0 fun s => { s with pending := none }).finishStream 0)
      aborted := by
    refine ⟨freed.toTidy.finishStream, fun task activity unfinished => ?_⟩
    rw [(finishStream_frame _ 0).1] at unfinished
    exact alone task activity unfinished
  obtain ⟨found, known, stopped, -⟩ := tidy.stream
  unfold Engine.resumeReading endRead
  cases outcome with
  | cancelled =>
    by_cases refused : found.aborted = true
    · simp only [known, Option.any_some, refused, if_true, refused_collected]
      exact ⟨_, freed.done _, fun _ => rfl⟩
    · simp only [known, Option.any_some, refused]
      exact ⟨_, freed.done _, fun going => absurd (stopped.trans going) refused⟩
  | failed failure => exact ⟨_, finished.done _, fun _ => rfl⟩
  | value v =>
    cases v with
    | drained => exact ⟨_, finished.done _, fun _ => by simp [outrun, collected]⟩
    | text t =>
      obtain ⟨next, stands, refused⟩ := freed.startCollect (pieces ++ [t])
      exact ⟨next, stands, refused⟩
    | nothing | truth b => exact ⟨_, freed.done _, fun _ => rfl⟩

/-! One move. -/

/-- How far one gets in one move. A stream that is aborted is read no further. -/
inductive Onward (aborted : Bool) (engine : Engine) (spot : Spot) : Spot → Prop where
  | stays : Onward aborted engine spot spot
  | reads (next : Spot) (going : aborted = false) : Onward aborted engine spot next
  | refused (fresh : spot = .fresh) : Onward aborted engine spot (.finished (.failed streamAborted))
  | ends (pieces : List Text) (read : Nat) (outcome : Outcome) (waits : spot = .reading pieces read)
    (ended : engine.loop.outcome? read = some outcome) :
    Onward aborted engine spot (.finished (outrun pieces outcome))

/-- A task has run. The collector is over then, if the stream was aborted; else it was the read. -/
def Ran (aborted : Bool) (task : Nat) (new : Engine) (next : Spot) : Prop :=
  (task = 0 ∧ (aborted = true → ∃ outcome, next = .finished outcome)) ∨
    new.loop.isDone task = true ∨ HeldBack new 0

/-- Whoever is woken is the read, or else the collector. -/
theorem Stands.woken (env : Environment) (stands : Stands engine aborted spot) {rest : List Handle}
    (first : engine.loop.ready = .wake task :: rest) {activity : Activity Phase}
    (known : engine.loop.Unfinished task activity) : ∃ next,
      Stands (conclude task
        (({ engine with loop := engine.loop.wakeFirst rest task activity.phase } : Engine).resume env
          activity.phase (engine.incoming activity))) aborted next ∧
        Onward aborted engine spot next ∧ Ran aborted task (conclude task
        (({ engine with loop := engine.loop.wakeFirst rest task activity.phase } : Engine).resume env
          activity.phase (engine.incoming activity))) next := by
  obtain ⟨found, known', finished, sound⟩ := Loop.Sound.wake stands.sound first
  cases known.unique known'
  have unfinished := Loop.unfinished_wakeFirst rest known activity.phase
  have tidy : Tidy { engine with loop := engine.loop.wakeFirst rest task activity.phase } (some task)
      aborted spot.read? :=
    ⟨sound, fun waiter member => (Loop.bare_wakeFirst known activity.phase waiter).mpr
      (stands.gate waiter member), stands.open_gate, stands.stream⟩
  have alone (apart : ∀ other found, engine.loop.Unfinished other found → other ≠ task → other = 0)
      (mine : task = 0) (other : Nat) (found : Activity Phase)
      (going : (engine.loop.wakeFirst rest task activity.phase).Unfinished other found) :
      other = 0 := by
    rcases (unfinished other found).mp going with ⟨rfl, -⟩ | ⟨different, going⟩
    · exact mine
    · exact apart other found going different
  by_cases mine : task = 0
  · subst mine
    have here := stands.here
    cases spot with
    | fresh =>
      cases known.unique here
      have collects : Collects _ aborted := ⟨tidy, alone (fun other found going different =>
        nomatch (stands.others other found going different).1) rfl⟩
      obtain ⟨next, stands', refused⟩ := collects.startCollect []
      refine ⟨next, stands', ?_, Or.inl ⟨rfl, fun stopped => ⟨_, refused stopped⟩⟩⟩
      cases aborted with
      | false => exact .reads next rfl
      | true => exact refused rfl ▸ .refused rfl
    | reading pieces read =>
      obtain ⟨waits, -⟩ := here
      cases known.unique waits
      have ended := finished read rfl
      obtain ⟨outcome, same⟩ := Option.ne_none_iff_exists'.mp ((Loop.isDone_iff _ _).mp ended)
      have gets : engine.incoming { phase := .reading 0 (.collect pieces), waitingFor := some read } =
          outcome := by
        simp [incoming, same]
      have only (other : Nat) (found : Activity Phase) (going : engine.loop.Unfinished other found)
          (different : other ≠ 0) : other = 0 := by
        obtain ⟨reads, -⟩ := stands.others other found going different
        cases reads
        cases going.2.symm.trans same
      obtain ⟨next, stands', refused⟩ := tidy.resumeReading env (alone only rfl) pieces outcome
      rw [gets]
      refine ⟨next, stands', ?_, Or.inl ⟨rfl, fun stopped => ⟨_, refused stopped⟩⟩⟩
      cases aborted with
      | false => exact .reads next rfl
      | true => exact refused rfl ▸ .ends pieces read outcome rfl same
    | finished outcome => cases known.2.symm.trans here
  · obtain ⟨reads, pulls⟩ := stands.others task activity known mine
    cases spot with
    | fresh | finished outcome => cases reads
    | reading pieces read =>
      cases reads
      obtain ⟨waits, other, -⟩ := stands.here
      have fetches : Fetches { engine with
          loop := engine.loop.wakeFirst rest task activity.phase } pieces task := by
        refine ⟨(unfinished 0 _).mpr (Or.inr ⟨Ne.symm other, waits⟩), other, fun other found going others => ?_⟩
        rcases (unfinished other found).mp going with ⟨same, -⟩ | ⟨-, going⟩
        · exact same
        · exact (Option.some.inj (stands.others other found going others).1).symm
      have pulls' := pulls.wake known rest
      obtain ⟨stands', rests⟩ := Stands.fetched tidy fetches (tugs_resume env pulls' _)
      exact ⟨_, stands', .stays, Or.inr rests⟩

theorem Stands.apply (env : Environment) (stands : Stands engine aborted spot) {move : Move}
    (passive : move.passive = true) : ∃ next, Stands (engine.apply env move) aborted next ∧
      Onward aborted engine spot next := by
  cases move with
  | turn =>
    have turned : Turned env engine (engine.apply env .turn) := turned_of_sound env stands.sound
    generalize engine.apply env .turn = next at *
    cases turned with
    | idle => exact ⟨spot, stands, .stays⟩
    | released waiter rest going first =>
      have calm : ∀ failure, Outcome.value .nothing ≠ .failed failure := nofun
      have bare := stands.sound.readyReleases waiter (first ▸ List.mem_cons_self ..)
      refine ⟨spot, stands.stirred ((stirred_release first bare .nothing).mono fun _ => False.elim)
        ((stands.sound.drop_release first).settle bare calm) fun id outside => ?_, .stays⟩
      rw [Loop.activity?_settle]
      exact Loop.activity?_of_length_le engine.loop outside
    | woken task rest activity awake going first known same =>
      subst same
      obtain ⟨next, stands', onward, -⟩ := stands.woken env first known
      exact ⟨next, stands', onward⟩
  | fireTimers => exact ⟨spot, stands.grown (Loop.grown_fireTimers stands.sound.timed), .stays⟩
  | pass nanoseconds => exact ⟨spot, stands.grown (Loop.grown_advance engine.loop nanoseconds), .stays⟩
  | openGate => exact ⟨spot, stands.openGate, .stays⟩
  | closeGate =>
    exact ⟨spot, stands.congr rfl rfl (fun _ => id) (fun _ member _ => member) nofun, .stays⟩
  | proceed waiter => exact ⟨spot, stands.proceed waiter, .stays⟩
  | script replies failure ignoresCancel heedless =>
    exact ⟨spot, stands.congr rfl rfl (fun _ => id) (fun _ member _ => member) stands.open_gate,
      .stays⟩
  | rescript stream actions farewell closable =>
    refine ⟨spot, stands.congr rfl ?_ (fun _ => id) (fun _ member _ => member) stands.open_gate, .stays⟩
    exact (alike_modifySource engine stream fun source =>
      { source with actions, farewell, closable }).streams
  | request | cancel | selectModel | clearCache | cancelTask | abort => cases passive

end Engine

end InlineCompletion
