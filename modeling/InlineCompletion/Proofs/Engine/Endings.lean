import Mathlib.Data.Nat.Find
import InlineCompletion.Proofs.Engine.Debounces
import InlineCompletion.Proofs.Engine.Departures

/-!
Completions end. While the loop goes on and the gate of the client is open, a completion passes from its
debounce to its call and through it. A stream that it reads has less to yield with every piece, so that in
the end only the time of a debounce can keep a completion waiting.
-/

namespace InlineCompletion

namespace Phase

/-- How many times a completion may still have to wait before its call. -/
def stage : Phase → Nat
  | .start _ => 3
  | .debouncing .. => 2
  | .unwinding .. => 1
  | _ => 0

end Phase

namespace Engine

variable {engine old new : Engine} {env : Environment} {run : Run} {touched : Nat → Prop}
  {task id read : Nat} {activity : Activity Phase} {stream : Stream}

/-! What a turn takes from a source. -/

/-- A task that does not run does not end. -/
theorem outcome?_turn (env : Environment) (coherent : engine.Coherent touched none)
    (known : engine.loop.Unfinished task activity) (unwoken : engine.woken? ≠ some task) :
    (engine.apply env .turn).loop.outcome? task = none := by
  obtain ⟨found, unfinished, -⟩ := (turned_turn env coherent).unfinished coherent known unwoken
  exact unfinished.2

theorem source_freed (engine : Engine) (phase : Phase) (there : engine.streams[id]? = some stream) :
    ∃ found, (engine.freed phase).streams[id]? = some found ∧ found.source = stream.source := by
  unfold freed
  split
  · next other _ =>
    by_cases here : id = other
    · subst here
      exact ⟨_, stream_modifyStream engine id _ there, rfl⟩
    · refine ⟨stream, (getElem?_modify ..).trans ?_, rfl⟩
      rw [if_neg here]
      exact there
  · exact ⟨stream, there, rfl⟩

theorem Left.rank {reads : Option Nat} {step : Step} (left : Left reads old step)
    (there : old.streams[id]? = some stream) :
    ∃ found, step.1.streams[id]? = some found ∧ found.source.rank ≤ stream.source.rank := by
  cases left with
  | rests step ebbed =>
    obtain ⟨found, there', -, ebbs⟩ := ebbed.ebb.streams id stream there
    exact ⟨found, there', ebbs.rank⟩
  | reads middle other run pieces seen ebb =>
    obtain ⟨found, there', -, ebbs⟩ := ebb.streams id stream there
    by_cases here : id = other
    · subst here
      exact ⟨_, stream_modifyStream _ id _ there', ebbs.rank⟩
    · refine ⟨found, (getElem?_modify ..).trans ?_, ebbs.rank⟩
      rw [if_neg here]
      exact there'

/-- A turn leaves no more of a source than there was, and less if the read ends with a piece. -/
theorem rank_turn (env : Environment) (coherent : engine.Coherent touched none) (manned : engine.Manned)
    (there : engine.streams[id]? = some stream) :
    ∃ found, (engine.apply env .turn).streams[id]? = some found ∧
      found.source.rank ≤ stream.source.rank ∧
      ∀ read activity t, stream.pending = some read → engine.loop.Unfinished read activity →
        (engine.apply env .turn).loop.outcome? read = some (.value (.text t)) →
        found.source.rank < stream.source.rank := by
  have pulls {read : Nat} {activity : Activity Phase} (pending : stream.pending = some read)
      (known : engine.loop.Unfinished read activity) : activity.phase.pulls? = some id := by
    rcases ((coherent.streams id stream there).pending read pending).2 activity known with start | pulls
    · rw [start]
      rfl
    · rw [pulls]
      rfl
  have silent {read : Nat} {activity : Activity Phase} (known : engine.loop.Unfinished read activity)
      (unwoken : engine.woken? ≠ some read) (t : Text) :
      (engine.apply env .turn).loop.outcome? read ≠ some (.value (.text t)) := by
    rw [outcome?_turn env coherent known unwoken]
    nofun
  have turned : Turned env engine (engine.apply env .turn) := turned_turn env coherent
  generalize engine.apply env .turn = next at *
  cases turned with
  | idle => exact ⟨stream, there, le_refl _, fun _ _ t _ known text => by cases known.2.symm.trans text⟩
  | released waiter rest going first =>
    refine ⟨stream, there, le_refl _, fun read _ t _ known text => absurd text (silent known ?_ t)⟩
    simp [woken?, going, first]
  | woken task rest found awake going first unfinished same =>
    subst same
    have woken : engine.woken? = some task := by simp [woken?, going, first]
    have runs := (Loop.unfinished_wakeFirst rest unfinished found.phase task _).mpr (Or.inl ⟨rfl, rfl⟩)
    have steady := (resumed_resume env coherent first unfinished).steady (coherent.wake first unfinished)
    obtain ⟨runner, runs', -⟩ := steady.after task _ runs
    have flow := flow_resume env coherent manned unfinished
      (show ({ engine with loop := engine.loop.wakeFirst rest task found.phase } : Engine).streams =
        engine.streams from rfl) (engine.incoming found)
    -- Whoever does not draw on this source is not its read.
    have other (aloof : found.phase.pulls? ≠ some id) {read : Nat} {activity : Activity Phase}
        (pending : stream.pending = some read) (known : engine.loop.Unfinished read activity) :
        engine.woken? ≠ some read := by
      intro same
      cases woken.symm.trans same
      cases known.unique unfinished
      exact aloof (pulls pending known)
    generalize Engine.resume _ env found.phase (engine.incoming found) = step at *
    rw [(conclude_client task step).1]
    cases flow with
    | leaves idle left =>
      obtain ⟨freed, there', source⟩ := source_freed { engine with
        loop := engine.loop.wakeFirst rest task found.phase } found.phase there
      obtain ⟨last, there'', less⟩ := left.rank there'
      refine ⟨last, there'', source ▸ less, fun read _ t pending known text => ?_⟩
      exact absurd text (silent known (other (fun same => by cases idle.symm.trans same) pending known) t)
    | draws drawn' stream' pulls' known' draws =>
      by_cases here : id = drawn'
      · subst here
        cases there.symm.trans known'
        obtain ⟨stream', there', pending'⟩ := manned.reads task found id unfinished pulls'
        cases there.symm.trans there'
        cases draws with
        | ends new source outcome drawn idle farewell less shrinks =>
          refine ⟨_, drawn.known there, less, fun read _ t pending _ text => shrinks t ?_⟩
          cases pending.symm.trans pending'
          exact Option.some.inj ((outcome?_conclude runs' outcome).symm.trans text)
        | waits new source target drawn farewell less =>
          refine ⟨_, drawn.known there, less, fun read _ t pending _ text => ?_⟩
          cases pending.symm.trans pending'
          have parked := (Loop.unfinished_park runs' (.pulling id) target _ _).mpr (Or.inl ⟨rfl, rfl⟩)
          cases parked.2.symm.trans text
      · obtain ⟨source, drawn, -⟩ := draws.drawn
        refine ⟨stream, (drawn.others here).trans there, le_refl _, fun read _ t pending known text => ?_⟩
        have aloof : found.phase.pulls? ≠ some id := fun same => here (Option.some.inj (same.symm.trans pulls'))
        exact absurd text (silent known (other aloof pending known) t)

/-! The loop goes on, and the gate of the client is open. -/

structure Smooth (env : Environment) (engine : Engine) : Prop
    extends Undisturbed env (fun _ => True) engine where
  manned : engine.Manned
  opened : engine.client.gateOpen = true

theorem Smooth.turn (smooth : Smooth env engine) : Smooth env (engine.apply env .turn) where
  toUndisturbed := by
    have later := smooth.toUndisturbed.later 1
    rwa [runTurns_succ] at later
  manned := smooth.manned.turn env (smooth.coherent 0)
  opened := by
    have manner := manner_turn env (smooth.coherent 0) smooth.manned
    exact (congrArg (fun manner => manner.2.2.2) manner).trans smooth.opened

theorem Smooth.later (smooth : Smooth env engine) (n : Nat) : Smooth env (runTurns env n engine) := by
  induction n generalizing engine with
  | zero => exact smooth
  | succ n ih =>
    rw [runTurns_succ]
    exact ih smooth.turn

theorem Smooth.free (smooth : Smooth env engine) (task : Nat) : ¬HeldBack engine task :=
  fun held => by cases held.1.symm.trans smooth.opened

/-- The completion waits for the time of its debounce. -/
def Sits (engine : Engine) (task : Nat) : Prop :=
  ∃ activity watch owner waiter, engine.loop.Unfinished task activity ∧
    activity.phase = .debouncing watch owner ∧ activity.waitingFor = some waiter ∧
    engine.loop.isPending waiter = true

/-- Whoever waits for nothing that is still to come runs. -/
theorem Undisturbed.wakes_up (undisturbed : Undisturbed env touched engine)
    (known : engine.loop.Unfinished task activity)
    (ended : ∀ target, activity.waitingFor = some target → engine.loop.isPending target ≠ true) :
    ∃ n, (runTurns env n engine).woken? = some task := by
  rcases (undisturbed.coherent 0).sound.rests task activity known nofun with awake | asleep
  · refine undisturbed.woken (List.count_pos_iff.mp ?_)
    have counted : engine.loop.ready.count (.wake task) = 1 := awake.1
    exact counted ▸ Nat.one_pos
  · obtain ⟨-, -, target, waits, pending, -⟩ := asleep
    exact absurd pending (ended target waits)

/-- A watch that was given up does not keep its completion waiting. -/
theorem Undisturbed.wakes_unwinding (undisturbed : Undisturbed env touched engine)
    (known : engine.loop.Unfinished task activity) {watch : Nat} {timedOut : Bool}
    (phase : activity.phase = .unwinding watch timedOut (some run)) :
    ∃ n, (runTurns env n engine).woken? = some task := by
  refine Classical.byContradiction fun unwoken => ?_
  obtain ⟨n, found, other, target, unfinished, same, unfinished', waits, pending⟩ :=
    undisturbed.watch_sleeps known (not_exists.mp unwoken) (Or.inr ⟨timedOut, phase⟩)
  have coherent := undisturbed.coherent n
  obtain ⟨-, -, -, spent⟩ := (coherent.fits task found unfinished nofun).of_unwinding (same.trans phase)
  rcases spent with ended | runs | ended | ⟨other', unfinished'', roused⟩
  · exact (Loop.isDone_iff _ _).mp ended unfinished'.2
  · cases runs
  · cases ended.symm.trans unfinished'.2
  · cases unfinished'.unique unfinished''
    exact coherent.not_roused unfinished' waits pending roused

/-- A completion that waits for no time runs. -/
theorem Smooth.wakes (smooth : Smooth env engine) (known : engine.loop.Unfinished task activity)
    (completes : activity.phase.isCompletion = true) (timed : ¬engine.Sits task) :
    ∃ n, (runTurns env n engine).woken? = some task := by
  have undisturbed := smooth.toUndisturbed
  have free (n : Nat) := (smooth.later n).free task
  cases (undisturbed.coherent 0).fits task activity known nofun with
  | start job phase internal idle =>
    exact undisturbed.wakes_up known fun target waits => by cases idle.symm.trans waits
  | debouncing watch run phase =>
    exact undisturbed.wakes_up known fun target waits pending =>
      timed ⟨activity, watch, some run, target, known, phase, waits, pending⟩
  | unwinding watch timedOut run phase => exact undisturbed.wakes_unwinding known phase
  | calling call run phase | reading stream read run pieces found phase
  | closing stream run reading found phase =>
    have works : activity.phase.run? = some run := by rw [phase]; rfl
    refine undisturbed.wakes known works (fun _ watch guards => ?_) free
    rcases guards with same | ⟨timedOut, same⟩ <;> cases phase.symm.trans same
  | watching phase | answering reply phase | pulling stream phase =>
    rw [phase] at completes
    cases completes

/-! A completion that runs. -/

/-- While a task does not run it stays in its phase. -/
theorem Undisturbed.until (undisturbed : Undisturbed env touched engine)
    (known : engine.loop.Unfinished task activity) {n : Nat}
    (unwoken : ∀ k < n, (runTurns env k engine).woken? ≠ some task) :
    ∃ found, (runTurns env n engine).loop.Unfinished task found ∧ found.phase = activity.phase ∧
      found.waitingFor = activity.waitingFor := by
  induction n with
  | zero => exact ⟨activity, known, rfl, rfl⟩
  | succ n ih =>
    obtain ⟨found, unfinished, phase, waiting⟩ := ih fun k less => unwoken k (Nat.lt_succ_of_lt less)
    have turned := turned_turn env (undisturbed.coherent n)
    obtain ⟨next, unfinished', phase', waiting'⟩ :=
      turned.unfinished (undisturbed.coherent n) unfinished (unwoken n (Nat.lt_succ_self n))
    rw [runTurns_turn]
    exact ⟨next, unfinished', phase'.trans phase, waiting'.trans waiting⟩

/-- Until a completion goes on with a piece, its read has taken that from the source. -/
theorem Smooth.rank_until (smooth : Smooth env engine) {pieces : List Text}
    (known : engine.loop.Unfinished task activity)
    (phase : activity.phase = .reading id (.completion run pieces)) (waits : activity.waitingFor = some read)
    (pending : engine.loop.isPending read = true) (there : engine.streams[id]? = some stream) {n : Nat}
    (unwoken : ∀ k < n, (runTurns env k engine).woken? ≠ some task) :
    ∃ found, (runTurns env n engine).streams[id]? = some found ∧
      found.source.rank ≤ stream.source.rank ∧
      ∀ t, (runTurns env n engine).loop.outcome? read = some (.value (.text t)) →
        found.source.rank < stream.source.rank := by
  induction n with
  | zero =>
    refine ⟨stream, there, le_refl _, fun t text => ?_⟩
    cases ((Loop.isPending_iff _ read).mp pending).2.symm.trans text
  | succ n ih =>
    have unwoken' : ∀ k < n, (runTurns env k engine).woken? ≠ some task :=
      fun k less => unwoken k (Nat.lt_succ_of_lt less)
    obtain ⟨found, there', less, shrinks⟩ := ih unwoken'
    obtain ⟨now, unfinished, phase', waits'⟩ := smooth.toUndisturbed.until known unwoken'
    have coherent := smooth.coherent n
    obtain ⟨last, there'', less', shrinks'⟩ := rank_turn env coherent (smooth.later n).manned there'
    rw [runTurns_turn]
    refine ⟨last, there'', less'.trans less, fun t text => ?_⟩
    obtain ⟨-, -, read', seen, -, waits'', ⟨⟨other, reads⟩, -⟩, -, seen', pending'⟩ :=
      (coherent.fits task now unfinished nofun).of_reading (phase'.trans phase)
    cases (waits''.symm.trans waits').trans waits
    cases there'.symm.trans seen'
    cases ended : (runTurns env n engine).loop.outcome? read with
    | none => exact (shrinks' read other t pending' ⟨reads, ended⟩ text).trans_le less
    | some outcome =>
      have kept := (moved_apply env coherent .turn).ended coherent ended
      cases kept.symm.trans text
      exact less'.trans_lt (shrinks t ended)

/-- A reader goes on to read only when it has got a piece. -/
theorem next_of_resumeReading {pieces : List Text} {outcome : Outcome} {target : Nat} {next : Phase}
    (waits : (engine.resumeReading env id (.completion run pieces) outcome).2 = .wait target next) :
    (∃ reading, next = .closing id (.completion run reading)) ∨ ∃ t, outcome = .value (.text t) ∧
      next = .reading id (.completion run (pieces ++ [t])) := by
  unfold resumeReading at waits
  cases read : engine.endRead id outcome with
  | mk seen new =>
    simp only [read] at waits
    cases seen with
    | cancelled | failed failure => exact Or.inl ⟨_, closing_of_closeFor waits⟩
    | value v =>
      cases v with
      | nothing | truth b | drained => exact Or.inl ⟨_, closing_of_closeFor waits⟩
      | text t =>
        have same : outcome = .value (.text t) := by
          unfold endRead at read
          split at read
          · split at read <;> cases read
          · cases read
          · cases read
          · cases read
            rfl
        unfold readFor at waits
        dsimp only at waits
        split at waits
        · cases waits
          exact Or.inr ⟨t, same, rfl⟩
        · exact Or.inl ⟨_, closing_of_closeFor waits⟩

/-- How a completion goes on that has run and not ended: with fewer waits before its call, or with the
next piece of a stream. -/
inductive Onwards (engine : Engine) (activity found : Activity Phase) : Prop where
  | nearer (nearer : found.phase.stage < activity.phase.stage)
  | reads (id : Nat) (run : Run) (pieces : List Text) (t : Text)
    (phase : activity.phase = .reading id (.completion run pieces))
    (piece : engine.incoming activity = .value (.text t))
    (next : found.phase = .reading id (.completion run (pieces ++ [t])))

/-- A task that works for a request does so until it ends. -/
theorem works_turn (env : Environment) (coherent : engine.Coherent touched none)
    (woken : engine.woken? = some task) (known : engine.loop.Unfinished task activity)
    (completes : activity.phase.isCompletion = true) {found : Activity Phase}
    (unfinished : (engine.apply env .turn).loop.Unfinished task found) :
    ∃ run, found.phase.run? = some run := by
  obtain ⟨rest, target, first, -, waits, -⟩ := wait_of_woken env coherent woken known unfinished
  have played {run : Run} {old : Engine} {step : Step} (played : Played env run old step)
      (waits : step.2 = .wait target found.phase) : ∃ run, found.phase.run? = some run := by
    cases played with
    | waits new target' phase deeds works =>
      cases waits
      exact ⟨run, works⟩
    | ends new result => cases waits
  cases resumed_resume env coherent first known with
  | plays run works played' => exact played played' waits
  | begins orchestrator o run starts wanted seated mine newest succeeds opened =>
    exact played (opened.played (succeeds.isLive seated mine newest)) waits
  | absent orchestrator starts wanted nowhere same =>
    rw [same] at waits
    cases waits
  | assists idle unstarted assists =>
    -- A completion that is cancelled before it begins ends at once.
    have starts : activity.phase.starts? ≠ none := by
      simpa [Phase.isCompletion, idle, Option.isSome_iff_ne_none] using completes
    rw [unstarted starts] at waits
    unfold Phase.starts? at starts
    split at starts
    · next same =>
      rw [same] at waits
      cases waits
    · exact absurd rfl starts

/-- One turn of a completion, with the gate open. -/
theorem Smooth.onwards (smooth : Smooth env engine) (woken : engine.woken? = some task)
    (known : engine.loop.Unfinished task activity) (completes : activity.phase.isCompletion = true)
    {found : Activity Phase} (unfinished : (engine.apply env .turn).loop.Unfinished task found) :
    Onwards engine activity found := by
  have coherent := smooth.coherent 0
  have coherent' := smooth.turn.coherent 0
  obtain ⟨run, works⟩ := works_turn env coherent woken known completes unfinished
  obtain ⟨rest, target, first, waits, verdict, pending⟩ :=
    wait_of_woken env coherent woken known unfinished
  have unclosed (reading : Outcome) (id : Nat) (run : Run) :
      found.phase ≠ .closing id (.completion run reading) := by
    intro phase
    have parting := parting_of_closing coherent' unfinished phase waits pending
    cases parting.1.symm.trans smooth.turn.opened
  cases (courses_apply env coherent .turn).bound task found run unfinished works with
  | asked asked =>
    have stage : found.phase.stage = 0 := by
      generalize found.phase = phase at asked
      unfold Phase.asked at asked
      split at asked <;> first | rfl | cases asked
    cases coherent.fits task activity known nofun with
    | start job phase | debouncing watch run phase | unwinding watch timedOut run phase =>
      refine .nearer ?_
      rw [stage, phase]
      exact Nat.succ_pos _
    | calling call run phase =>
      rw [phase] at verdict
      obtain ⟨result, ends⟩ := afterCall_ends env run _ _
      cases ends.symm.trans verdict
    | reading id read run pieces seen phase =>
      rw [phase] at verdict
      rcases next_of_resumeReading verdict with ⟨reading, closes⟩ | ⟨t, piece, reads⟩
      · exact absurd closes (unclosed reading id run)
      · exact .reads id run pieces t phase piece reads
    | closing id run reading seen phase =>
      rw [phase] at verdict
      exact absurd (closing_of_deliverFarewell verdict) (unclosed reading id run)
    | watching phase | answering reply phase | pulling stream phase =>
      rw [phase] at completes
      cases completes
  | stays other unwoken => exact absurd woken (unwoken rfl)
  | unwinds other watch timedOut woken' known' debounces guarded passed phase =>
    cases woken.symm.trans woken'
    cases known.unique known'
    refine .nearer ?_
    rw [debounces, phase]
    exact Nat.lt_succ_self 1
  | debounces o watch waiter begun seated delayed phase =>
    obtain ⟨other, woken', rest⟩ := Option.bind_eq_some_iff.mp begun
    obtain ⟨before, known', enters⟩ := Option.bind_eq_some_iff.mp rest
    cases woken.symm.trans woken'
    cases known.1.symm.trans known'
    refine .nearer ?_
    unfold enters? at enters
    split at enters
    · next start =>
      rw [start, phase]
      exact Nat.lt_succ_self 2
    · cases enters

/-- Whoever has run waits again or has ended. -/
theorem turn_done_or_waits (env : Environment) (coherent : engine.Coherent touched none)
    (woken : engine.woken? = some task) (known : engine.loop.Unfinished task activity) :
    (engine.apply env .turn).loop.isDone task = true ∨
      ∃ found, (engine.apply env .turn).loop.Unfinished task found := by
  obtain ⟨rest, first, same⟩ := turn_of_woken env coherent woken known
  obtain ⟨runner, runs⟩ := runner_of_woken env coherent first known
  rw [same]
  generalize Engine.resume _ env activity.phase (engine.incoming activity) = step at *
  obtain ⟨last, verdict⟩ := step
  cases verdict with
  | done result =>
    left
    rw [Loop.isDone_iff, outcome?_conclude runs result]
    nofun
  | wait target phase => exact Or.inr ⟨_, (Loop.unfinished_park runs phase target task _).mpr (Or.inl ⟨rfl, rfl⟩)⟩

/-- A completion that waits for no time gets its turn, from where it is. -/
theorem Smooth.comes (smooth : Smooth env engine) (known : engine.loop.Unfinished task activity)
    (completes : activity.phase.isCompletion = true) (timed : ¬engine.Sits task) :
    ∃ n, (runTurns env n engine).woken? = some task ∧
      ∀ k < n, (runTurns env k engine).woken? ≠ some task := by
  classical
  have comes := smooth.wakes known completes timed
  exact ⟨Nat.find comes, Nat.find_spec comes, fun k less => Nat.find_min comes less⟩

/-! The end of a call. -/

/-- A stream that is read comes to its end. The induction is on what it may still yield. -/
theorem Smooth.read_ends (smooth : Smooth env engine) {pieces : List Text}
    (known : engine.loop.Unfinished task activity)
    (phase : activity.phase = .reading id (.completion run pieces)) (waits : activity.waitingFor = some read)
    (pending : engine.loop.isPending read = true) (there : engine.streams[id]? = some stream) :
    ∃ n, (runTurns env n engine).loop.isDone task = true := by
  generalize same : stream.source.rank = rank
  induction rank using WellFoundedLT.induction generalizing engine activity stream read pieces with
  | ind rank ih =>
    have unseated : ¬engine.Sits task := by
      intro sits
      obtain ⟨other, watch, owner, waiter, known', debounces, -⟩ := sits
      cases known.unique known'
      cases phase.symm.trans debounces
    obtain ⟨n, woken, unwoken⟩ := smooth.comes known (by rw [phase]; rfl) unseated
    obtain ⟨now, unfinished, phase', waits'⟩ := smooth.toUndisturbed.until known unwoken
    obtain ⟨seen, there', -, shrinks⟩ := smooth.rank_until known phase waits pending there unwoken
    have later := smooth.later n
    have coherent := later.coherent 0
    have next := runTurns_turn env n engine
    rcases turn_done_or_waits env coherent woken unfinished with ended | ⟨found, unfinished'⟩
    · exact ⟨n + 1, next ▸ ended⟩
    cases later.onwards woken unfinished (by rw [phase', phase]; rfl) unfinished' with
    | nearer nearer =>
      rw [phase', phase] at nearer
      exact absurd nearer (Nat.not_lt_zero _)
    | reads id' run' pieces' t phase'' piece reads =>
      cases (phase''.symm.trans phase').trans phase
      have ended := outcome?_of_incoming (waits'.trans waits) piece
      obtain ⟨last, there'', less, -⟩ := rank_turn env coherent later.manned there'
      obtain ⟨rest, target, -, waits'', -, pending'⟩ :=
        wait_of_woken env coherent woken unfinished unfinished'
      obtain ⟨m, done⟩ := ih _ (same ▸ less.trans_lt (shrinks t ended)) later.turn unfinished' reads waits''
        pending' there'' rfl
      refine ⟨n + 1 + m, ?_⟩
      rw [runTurns_add, next]
      exact done

/-- A completion ends, unless it waits for the time of its debounce, which it does at most once. The
induction is on how many times it may still have to wait before its call. -/
theorem Smooth.ends_or_sits (smooth : Smooth env engine) (known : engine.loop.Unfinished task activity)
    (completes : activity.phase.isCompletion = true) :
    ∃ n, (runTurns env n engine).loop.isDone task = true ∨
      2 ≤ activity.phase.stage ∧ (runTurns env n engine).Sits task := by
  generalize same : activity.phase.stage = stage
  induction stage using Nat.strong_induction_on generalizing engine activity with
  | _ stage ih =>
    by_cases sits : engine.Sits task
    · refine ⟨0, Or.inr ⟨?_, sits⟩⟩
      obtain ⟨other, watch, owner, waiter, known', debounces, -⟩ := sits
      cases known.unique known'
      rw [← same, debounces]
      exact Nat.le_refl _
    obtain ⟨n, woken, unwoken⟩ := smooth.comes known completes sits
    obtain ⟨now, unfinished, phase, -⟩ := smooth.toUndisturbed.until known unwoken
    have later := smooth.later n
    have coherent := later.coherent 0
    have next := runTurns_turn env n engine
    rcases turn_done_or_waits env coherent woken unfinished with ended | ⟨found, unfinished'⟩
    · exact ⟨n + 1, Or.inl (next ▸ ended)⟩
    have completes' : now.phase.isCompletion = true := phase ▸ completes
    obtain ⟨run, works⟩ := works_turn env coherent woken unfinished completes' unfinished'
    cases later.onwards woken unfinished completes' unfinished' with
    | nearer nearer =>
      rw [phase, same] at nearer
      obtain ⟨m, ends⟩ := ih _ nearer later.turn unfinished' (by simp [Phase.isCompletion, works]) rfl
      refine ⟨n + 1 + m, ?_⟩
      rw [runTurns_add, next]
      exact ends.imp_right (And.imp_left fun enough => Nat.le_trans enough (Nat.le_of_lt nearer))
    | reads id run pieces t phase' piece reads =>
      obtain ⟨rest, target, -, waits, -, pending⟩ := wait_of_woken env coherent woken unfinished unfinished'
      have mine : .stream id ∈ found.phase.belongings := by simp [reads, Phase.belongings]
      have fits := (later.turn.coherent 0).fits task found unfinished' (Option.some_ne_none task).symm
      obtain ⟨stream, there⟩ := fits.there mine
      obtain ⟨m, done⟩ := later.turn.read_ends unfinished' reads waits pending there
      refine ⟨n + 1 + m, Or.inl ?_⟩
      rw [runTurns_add, next]
      exact done

end Engine

end InlineCompletion
