import Mathlib.Data.Prod.Lex
import InlineCompletion.Proofs.Engine.Ebbing

/-!
Who draws on a source. A task that reads a piece is the one that its stream waits for, and only such a
task waits inside the source; each piece that it reads leaves less of the source.
-/

namespace InlineCompletion

/-- How much a source may still yield: the reply to its call, and then what is left of that. -/
def Source.rank (source : Source) : Nat ×ₗ Nat :=
  toLex (if source.opening.isSome then 1 else 0, source.actions.length)

/-- A piece that was read is gone. -/
theorem Client.length_of_pull_text {client : Client} {actions rest : List SourceAction} {t : Text}
    (ended : client.pull actions = (.ended (.value (.text t)), rest)) :
    rest.length < actions.length := by
  induction actions with
  | nil => cases ended
  | cons action later ih =>
    have further (ended : client.pull later = (.ended (.value (.text t)), rest)) :
        rest.length < (action :: later).length := (ih ended).trans (Nat.lt_succ_self _)
    cases action with
    | passGate =>
      unfold pull at ended
      split at ended
      · exact further ended
      · cases ended
    | checkFailure =>
      unfold pull at ended
      split at ended
      · cases ended
      · exact further ended
    | piece t' =>
      cases ended
      exact Nat.lt_succ_self _
    | fail failure => cases ended

namespace Source

variable {source other : Source}

theorem rank_le_of_length (opening : other.opening = source.opening)
    (length : other.actions.length ≤ source.actions.length) : other.rank ≤ source.rank := by
  unfold rank
  rw [opening]
  exact Prod.Lex.toLex_le_toLex.mpr (Or.inr ⟨rfl, length⟩)

theorem rank_lt_of_length (opening : other.opening = source.opening)
    (length : other.actions.length < source.actions.length) : other.rank < source.rank := by
  unfold rank
  rw [opening]
  exact Prod.Lex.toLex_lt_toLex.mpr (Or.inr ⟨rfl, length⟩)

/-- Whatever a reply holds, it comes after the call. -/
theorem rank_lt_of_opened (unopened : source.opening.isSome = true) (opened : other.opening = none) :
    other.rank < source.rank := by
  unfold rank
  rw [opened, unopened]
  exact Prod.Lex.toLex_lt_toLex.mpr (Or.inl Nat.one_pos)

theorem Ebbs.rank (ebbs : Ebbs source other) : other.rank ≤ source.rank := by
  rcases ebbs.rest with ⟨opening, actions⟩ | ⟨closed, none⟩
  · exact rank_le_of_length opening (Nat.le_of_eq (by rw [actions]))
  · cases opening : source.opening with
    | none => exact rank_le_of_length (closed.trans opening.symm) (by simp [none])
    | some call => exact le_of_lt (rank_lt_of_opened (by simp [opening]) closed)

end Source

namespace Engine

variable {engine old new middle : Engine} {env : Environment} {run : Run} {touched : Nat → Prop}
  {running : Option (Nat × Outcome)} {id task : Nat} {source : Source} {stream : Stream}
  {phase : Phase} {outcome : Outcome}

/-- A task has drawn on the source of a stream, of which this is left. -/
structure Drawn (id : Nat) (source : Source) (old new : Engine) : Prop where
  manner : new.client.manner = old.client.manner
  streams : new.streams = old.streams.modify id fun s => { s with source }
  unread : Unread old.loop new.loop

/-- A read that goes on from its phase ends, or waits inside the source. -/
inductive Draws (id : Nat) (old : Engine) (before : Source) (phase : Phase) : Step → Prop where
  | ends (new : Engine) (source : Source) (outcome : Outcome) (drawn : Drawn id source old new)
    (idle : source.busy = true → before.busy = true ∧ phase = .start (.pull id))
    (farewell : source.farewell = before.farewell) (less : source.rank ≤ before.rank)
    (read : ∀ t, outcome = .value (.text t) → source.rank < before.rank) :
    Draws id old before phase (new, .done outcome)
  | waits (new : Engine) (source : Source) (target : Nat) (drawn : Drawn id source old new)
    (farewell : source.farewell = before.farewell) (less : source.rank ≤ before.rank) :
    Draws id old before phase (new, .wait target (.pulling id))

theorem Drawn.known (drawn : Drawn id source old new) (known : old.streams[id]? = some stream) :
    new.streams[id]? = some { stream with source } := by
  rw [drawn.streams, getElem?_modify, if_pos rfl, known]
  rfl

theorem Drawn.others (drawn : Drawn id source old new) {other : Nat} (apart : other ≠ id) :
    new.streams[other]? = old.streams[other]? := by
  rw [drawn.streams, getElem?_modify, if_neg apart]

/-- Nothing has been drawn yet. -/
theorem drawn_refl (known : engine.streams[id]? = some stream) :
    Drawn id stream.source engine engine where
  manner := rfl
  streams := by
    refine (modify_eq_self_of_same fun found known' => ?_).symm
    cases known.symm.trans known'
    rfl
  unread := .refl _

theorem Drawn.modifySource (drawn : Drawn id source old new) (f : Source → Source) :
    Drawn id (f source) old (new.modifySource id f) where
  manner := drawn.manner
  streams := by
    show new.streams.modify id _ = _
    rw [drawn.streams, List.modify_modify_eq]
    rfl
  unread := drawn.unread

theorem Drawn.trans_loop (drawn : Drawn id source old new) {last : Engine}
    (manner : last.client.manner = new.client.manner) (streams : last.streams = new.streams)
    (unread : Unread new.loop last.loop) : Drawn id source old last where
  manner := manner.trans drawn.manner
  streams := streams.trans drawn.streams
  unread := drawn.unread.trans unread

theorem Draws.drawn {before : Source} {step : Step} (draws : Draws id old before phase step) :
    ∃ source, Drawn id source old step.1 ∧ source.farewell = before.farewell ∧
      source.rank ≤ before.rank := by
  cases draws with
  | ends new source outcome drawn idle farewell less => exact ⟨source, drawn, farewell, less⟩
  | waits new source target drawn farewell less => exact ⟨source, drawn, farewell, less⟩

theorem Draws.next {before : Source} {step : Step} (draws : Draws id old before phase step)
    {target : Nat} {next : Phase} (waits : step.2 = .wait target next) : next = .pulling id := by
  cases draws with
  | ends => cases waits
  | waits => cases waits; rfl

theorem draws_pullSource {before : Source} (known : old.streams[id]? = some stream)
    (drawn : Drawn id source old engine) (farewell : source.farewell = before.farewell)
    (less : source.rank ≤ before.rank) : Draws id old before phase (engine.pullSource id) := by
  have shorter (actions : List SourceAction) (busy : Bool) (suffix : actions <:+ source.actions) :
      ({ source with actions, busy } : Source).rank ≤ before.rank := by
    have less' : ({ source with actions, busy } : Source).rank ≤ source.rank :=
      Source.rank_le_of_length rfl suffix.length_le
    exact less'.trans less
  have left := engine.client.pull_suffix source.actions
  unfold pullSource
  simp only [drawn.known known]
  cases pulled : engine.client.pull source.actions with
  | mk result actions =>
    rw [pulled] at left
    cases result with
    | ended outcome =>
      refine .ends _ _ outcome (drawn.modifySource fun source =>
        { source with actions, busy := false }) nofun farewell (shorter actions false left) fun t text => ?_
      subst text
      have less' : ({ source with actions, busy := false } : Source).rank < source.rank :=
        Source.rank_lt_of_length rfl (Client.length_of_pull_text pulled)
      exact less'.trans_le less
    | blocked =>
      have drawn' := drawn.modifySource fun source => { source with actions, busy := true }
      refine .waits _ _ _ (drawn'.trans_loop rfl rfl ?_) farewell (shorter actions true left)
      exact .of_same fun task => Loop.activity?_addFuture ..

theorem draws_startPull (known : engine.streams[id]? = some stream) :
    Draws id engine stream.source (.start (.pull id)) (engine.startPull id) := by
  have none := drawn_refl known
  unfold startPull
  split
  · next busy =>
    refine .ends engine stream.source _ none (fun busy => ⟨busy, rfl⟩) rfl (le_refl _) fun t same => ?_
    cases same
  · unfold openSource
    cases opening : stream.source.opening with
    | none =>
      simp only [known, Option.bind_some, opening]
      exact draws_pullSource known none rfl (le_refl _)
    | some call =>
      simp only [known, Option.bind_some, opening]
      have taken : Drawn id stream.source engine (engine.takeReply call).2 := none.trans_loop rfl rfl (.refl _)
      refine draws_pullSource known (taken.modifySource fun source =>
        { source with opening := Option.none, actions := (engine.takeReply call).1.actions }) rfl ?_
      exact le_of_lt (Source.rank_lt_of_opened (by simp [opening]) rfl)

theorem draws_resumePull (known : engine.streams[id]? = some stream) (outcome : Outcome) :
    Draws id engine stream.source (.pulling id) (engine.resumePull id outcome) := by
  have none := drawn_refl known
  unfold resumePull
  split
  · exact draws_pullSource known none rfl (le_refl _)
  · next unvalued =>
    split
    · exact draws_pullSource known none rfl (le_refl _)
    · refine .ends _ _ _ (none.modifySource fun source =>
        { source with actions := [], busy := false }) nofun rfl ?_ fun t same => absurd same (unvalued _)
      exact Source.rank_le_of_length rfl (Nat.zero_le _)

/-! Who reads. -/

/-- Whoever reads a piece is the one that the stream waits for, and only such a task waits inside the
source. -/
structure Manned (engine : Engine) : Prop where
  reads : ∀ task activity id, engine.loop.Unfinished task activity →
    activity.phase.pulls? = some id →
    ∃ stream, engine.streams[id]? = some stream ∧ stream.pending = some task
  busy : ∀ (id : Nat) (stream : Stream), engine.streams[id]? = some stream →
    stream.source.busy = true →
    ∃ task activity, engine.loop.Unfinished task activity ∧ activity.phase = .pulling id

theorem Manned.congr (manned : old.Manned) (streams : new.streams = old.streams)
    (unfinished : ∀ task activity, new.loop.Unfinished task activity →
      ∃ found, old.loop.Unfinished task found ∧ found.phase = activity.phase)
    (unfinished' : ∀ task activity, old.loop.Unfinished task activity →
      ∃ found, new.loop.Unfinished task found ∧ found.phase = activity.phase) : new.Manned where
  reads := by
    intro task activity id known pulls
    obtain ⟨found, known', phase⟩ := unfinished task activity known
    rw [streams]
    exact manned.reads task found id known' (phase ▸ pulls)
  busy := by
    intro id stream known busy
    obtain ⟨task, activity, known', phase⟩ := manned.busy id stream (streams ▸ known) busy
    obtain ⟨found, known'', phase'⟩ := unfinished' task activity known'
    exact ⟨task, found, known'', phase'.trans phase⟩

/-- How a task that goes on from its phase treats the streams. -/
inductive Flow (old : Engine) (phase : Phase) (step : Step) : Prop where
  | leaves (idle : phase.pulls? = none) (left : Left phase.reads? (old.freed phase) step)
  | draws (id : Nat) (stream : Stream) (pulls : phase.pulls? = some id)
    (known : old.streams[id]? = some stream) (draws : Draws id old stream.source phase step)

theorem Left.manner {reads : Option Nat} {step : Step} (left : Left reads old step) :
    step.1.client.manner = old.client.manner := by
  cases left with
  | rests step ebbed => exact ebbed.ebb.manner
  | reads middle stream run pieces found ebb => exact ebb.manner

theorem Flow.manner {step : Step} (flow : Flow old phase step) :
    step.1.client.manner = old.client.manner := by
  cases flow with
  | leaves idle left =>
    refine left.manner.trans ?_
    unfold freed
    split <;> rfl
  | draws id stream pulls known draws =>
    obtain ⟨source, drawn, -⟩ := draws.drawn
    exact drawn.manner

theorem Ebbed.flow {step : Step} (ebbed : Ebbed old step) (idle : phase.pulls? = none)
    (unread : phase.reads? = none) : Flow old phase step := by
  refine .leaves idle ?_
  unfold freed
  rw [unread]
  exact .rests step ebbed

theorem ebbed_awaitGate (ebb : Ebb old new) (reply : Reply) :
    Ebbed old (new.awaitGate (.answering reply)) :=
  .of_wait (ebb.trans (ebb_awaitGate new (.answering reply))) _ ⟨rfl, rfl⟩

theorem ebbed_startWatch (engine : Engine) (request : Nat) :
    Ebbed engine (engine.startWatch request) := by
  unfold startWatch
  split
  · exact .of_done (.refl engine) _
  · have waits : Ebb engine (engine.addFuture.2.modifyRequest request fun r =>
        { r with waiters := r.waiters ++ [engine.loop.futures.length] }) :=
      (ebb_addFuture engine).trans (.of_eq rfl rfl rfl)
    exact .of_wait waits _ ⟨rfl, rfl⟩

theorem ebbed_startAnswer (engine : Engine) (call : Call) :
    Ebbed engine (engine.startAnswer call) := by
  have taken : Ebb engine (engine.takeReply call).2 := .of_same rfl rfl (.refl _)
  unfold startAnswer
  dsimp only
  split
  · exact .of_done taken _
  · exact ebbed_awaitGate taken _

theorem ebbed_resumeAnswer (engine : Engine) (reply : Reply) (outcome : Outcome) :
    Ebbed engine (engine.resumeAnswer reply outcome) := by
  unfold resumeAnswer
  split
  · exact .of_done (.refl engine) _
  · split
    · exact .of_done (.refl engine) _
    · split
      · exact .of_done (.refl engine) _
      · exact ebbed_awaitGate (.refl engine) reply

/-- Every task that goes on treats the streams in one of these ways. -/
theorem flow_resume (env : Environment) (coherent : engine.Coherent touched none)
    (manned : engine.Manned) {activity : Activity Phase}
    (known : engine.loop.Unfinished task activity) {awake : Engine}
    (streams : awake.streams = engine.streams) (outcome : Outcome) :
    Flow awake activity.phase (awake.resume env activity.phase outcome) := by
  have drawn (id : Nat) (pulls : activity.phase.pulls? = some id) :
      ∃ stream, awake.streams[id]? = some stream := by
    obtain ⟨stream, found, -⟩ := manned.reads task activity id known pulls
    exact ⟨stream, streams ▸ found⟩
  have plays {run : Run} (works : activity.phase.run? = some run) :
      Flow awake activity.phase (awake.resume env activity.phase outcome) := by
    refine .leaves ?_ (left_resume env works outcome)
    generalize activity.phase = phase at works
    unfold Phase.run? at works
    split at works <;> first | rfl | cases works
  cases coherent.fits task activity known nofun with
  | start job phase internal idle =>
    rw [phase] at drawn ⊢
    cases job with
    | watch request =>
      refine Ebbed.flow ?_ rfl rfl
      cases outcome with
      | value v => exact ebbed_startWatch awake request
      | failed | cancelled => exact .of_done (.refl awake) _
    | answer call =>
      refine Ebbed.flow ?_ rfl rfl
      cases outcome with
      | value v => exact ebbed_startAnswer awake call
      | failed | cancelled => exact .of_done (.refl awake) _
    | pull id =>
      obtain ⟨stream, found⟩ := drawn id rfl
      refine .draws id stream rfl found ?_
      have nothing {other : Outcome} (textless : ∀ t, other ≠ .value (.text t)) :
          Draws id awake stream.source (.start (.pull id)) (awake, .done other) :=
        .ends awake stream.source other (drawn_refl found) (fun busy => ⟨busy, rfl⟩) rfl (le_refl _)
          fun t same => absurd same (textless t)
      cases outcome with
      | value v => exact draws_startPull found
      | failed | cancelled => exact nothing nofun
    | complete orchestrator document position =>
      refine .leaves rfl ?_
      cases outcome with
      | value v => exact left_startCompletion ..
      | failed | cancelled => exact .rests _ (.of_done (.refl awake) _)
    | debounce | chat | next | collect | close => exact internal.elim
  | watching phase =>
    rw [phase]
    refine Ebbed.flow ?_ rfl rfl
    cases outcome <;> exact .of_done (.refl awake) _
  | answering reply phase =>
    rw [phase]
    exact (ebbed_resumeAnswer awake reply outcome).flow rfl rfl
  | pulling id phase =>
    rw [phase] at drawn ⊢
    obtain ⟨stream, found⟩ := drawn id rfl
    exact .draws id stream rfl found (draws_resumePull found outcome)
  | debouncing _ run phase | unwinding _ _ run phase | calling _ run phase
  | reading _ _ run _ _ phase | closing _ run _ _ phase => exact plays (by rw [phase]; rfl)

/-! One turn. -/

/-- Whoever was there goes on from the same phase, and the others are new. -/
structure Lasting (old new : Loop Phase) : Prop where
  after : ∀ task activity, old.Unfinished task activity →
    ∃ found, new.Unfinished task found ∧ found.phase = activity.phase
  before : ∀ task activity, new.Unfinished task activity →
    (∃ found, old.Unfinished task found ∧ activity.phase = found.phase) ∨
      old.futures.length ≤ task

theorem Steady.lasting (steady : Steady old new) : Lasting old.loop new.loop where
  after := fun task activity known => by
    obtain ⟨found, known', phase, -⟩ := steady.after task activity known
    exact ⟨found, known', phase⟩
  before := fun task activity known => by
    rcases steady.before task activity known with ⟨found, known', phase, -⟩ | ⟨outside, -⟩
    · exact Or.inl ⟨found, known', phase.symm⟩
    · exact Or.inr outside

/-- Whoever reads after an ebb has read before. -/
theorem Lasting.reader (lasting : Lasting old.loop new.loop) (ebb : Ebb old middle)
    {activity : Activity Phase} (known : new.loop.Unfinished task activity)
    (there : middle.loop.activity? task = some activity) (pulls : activity.phase.pulls? = some id) :
    ∃ found, old.loop.Unfinished task found ∧ found.phase.pulls? = some id := by
  rcases lasting.before task activity known with ⟨found, known', phase⟩ | outside
  · exact ⟨found, known', phase ▸ pulls⟩
  · rcases ebb.unread task activity there with ⟨found, known', -⟩ | aloof
    · exact absurd (Loop.lt_of_activity? _ known') (Nat.not_lt_of_le outside)
    · cases aloof.symm.trans pulls

/-- A source that is busy after an ebb was so before. -/
theorem Manned.busy_after (manned : old.Manned) (ebb : Ebb old middle)
    (lasting : Lasting old.loop new.loop) (known : middle.streams[id]? = some stream)
    (busy : stream.source.busy = true) :
    ∃ task activity, new.loop.Unfinished task activity ∧ activity.phase = .pulling id := by
  by_cases inside : id < old.streams.length
  · obtain ⟨found, known', -, ebbs⟩ := ebb.streams id _ (List.getElem?_eq_getElem inside)
    cases known.symm.trans known'
    obtain ⟨task, activity, reads, phase⟩ :=
      manned.busy id _ (List.getElem?_eq_getElem inside) (ebbs.busy ▸ busy)
    obtain ⟨found, reads', phase'⟩ := lasting.after task activity reads
    exact ⟨task, found, reads', phase'.trans phase⟩
  · obtain ⟨-, idle, -⟩ := ebb.fresh id stream known (Nat.le_of_not_lt inside)
    cases idle.symm.trans busy

theorem Manned.ebb (manned : old.Manned) (ebb : Ebb old new) (lasting : Lasting old.loop new.loop) :
    new.Manned where
  reads := by
    intro task activity id known pulls
    obtain ⟨found, known', pulls'⟩ := lasting.reader ebb known known.1 pulls
    obtain ⟨stream, there, pending⟩ := manned.reads task found id known' pulls'
    obtain ⟨stream', there', pending', -⟩ := ebb.streams id stream there
    exact ⟨stream', there', pending'.trans pending⟩
  busy := fun _ _ => manned.busy_after ebb lasting

/-- A completion that reads a stream on which nobody draws leaves its reader there. -/
theorem Manned.left {reads : Option Nat} {step : Step} (manned : old.Manned)
    (left : Left reads old step) (lasting : Lasting old.loop step.1.loop)
    (free : ∀ id, reads = some id → ∀ task activity, old.loop.Unfinished task activity →
      activity.phase.pulls? ≠ some id) : step.1.Manned := by
  cases left with
  | rests step ebbed => exact manned.ebb ebbed.ebb lasting
  | reads middle stream run pieces found ebb known going mine =>
    have alone (task : Nat) (activity : Activity Phase) (unfinished : old.loop.Unfinished task activity) :
        activity.phase.pulls? ≠ some stream := by
      rcases mine with outside | same
      · intro pulls
        obtain ⟨other, there, -⟩ := manned.reads task activity stream unfinished pulls
        exact absurd (List.getElem?_eq_some_iff.mp there).1 (Nat.not_lt_of_le outside)
      · exact free stream same task activity unfinished
    have streams (id : Nat) : ((middle.spawn (.pull stream)).2.modifyStream stream fun s =>
        { s with pending := some middle.loop.futures.length }).streams[id]? =
          if id = stream then some { found with pending := some middle.loop.futures.length }
          else middle.streams[id]? := by
      show (middle.streams.modify stream _)[id]? = _
      rw [getElem?_modify]
      split
      · next here => rw [here, known]; rfl
      · rfl
    refine ⟨fun task activity id unfinished pulls => ?_, fun id other there busy => ?_⟩
    · rw [streams]
      have there : (middle.loop.spawn (.start (.pull stream))).2.activity? task = some activity :=
        unfinished.1
      rw [Loop.activity?_spawn] at there
      split at there
      · next newest =>
        cases there
        cases pulls
        exact ⟨_, if_pos rfl, by rw [newest]⟩
      · obtain ⟨before, unfinished', pulls'⟩ := lasting.reader ebb unfinished there pulls
        obtain ⟨other, there', pending⟩ := manned.reads task before id unfinished' pulls'
        obtain ⟨other', there'', pending', -⟩ := ebb.streams id other there'
        have apart : id ≠ stream := fun here => alone task before unfinished' (here ▸ pulls')
        exact ⟨other', (if_neg apart).trans there'', pending'.trans pending⟩
    · rw [streams] at there
      split at there
      · next here =>
        subst here
        cases there
        exact manned.busy_after ebb lasting known busy
      · exact manned.busy_after ebb lasting there busy

/-- What a completion goes on with leaves nobody who draws on its stream. -/
theorem Manned.freed (manned : old.Manned) (free : ∀ id, phase.reads? = some id →
    ∀ task activity, old.loop.Unfinished task activity → activity.phase.pulls? ≠ some id) :
    (old.freed phase).Manned := by
  unfold Engine.freed
  cases reads : phase.reads? with
  | none => exact manned
  | some stream =>
    dsimp only
    have streams (id : Nat) : (old.modifyStream stream fun s =>
        { s with pending := none }).streams[id]? =
          if id = stream then old.streams[id]?.map fun s => { s with pending := none }
          else old.streams[id]? := getElem?_modify ..
    refine ⟨fun task activity id unfinished pulls => ?_, fun id other there busy => ?_⟩
    · have apart : id ≠ stream := by
        intro here
        subst here
        exact free id reads task activity unfinished pulls
      rw [streams, if_neg apart]
      exact manned.reads task activity id unfinished pulls
    · rw [streams] at there
      split at there
      · obtain ⟨before, there', rfl⟩ := Option.map_eq_some_iff.mp there
        exact manned.busy id before there' busy
      · exact manned.busy id other there busy

theorem conclude_client (task : Nat) (step : Step) :
    (conclude task step).streams = step.1.streams ∧ (conclude task step).client = step.1.client := by
  obtain ⟨engine, verdict⟩ := step
  cases verdict with
  | wait target phase => exact ⟨rfl, rfl⟩
  | done result =>
    unfold conclude
    dsimp only
    split
    · split <;> exact ⟨rfl, rfl⟩
    · exact ⟨rfl, rfl⟩

/-- A task that has run is where its verdict puts it. -/
theorem activity_conclude {step : Step} {activity found : Activity Phase}
    (known : step.1.loop.Unfinished task activity)
    (unfinished : (conclude task step).loop.Unfinished task found) :
    ∃ target, step.2 = .wait target found.phase ∧ found.waitingFor = some target := by
  obtain ⟨engine, verdict⟩ := step
  cases verdict with
  | wait target phase =>
    rcases (Loop.unfinished_park known phase target task found).mp unfinished with
      ⟨-, rfl⟩ | ⟨different, -⟩
    · exact ⟨target, rfl, rfl⟩
    · exact absurd rfl different
  | done result =>
    rw [loop_conclude_done] at unfinished
    exact absurd rfl ((Loop.unfinished_finish known result task found).mp unfinished).1

theorem phase_conclude {step : Step} {activity found : Activity Phase}
    (known : step.1.loop.Unfinished task activity)
    (unfinished : (conclude task step).loop.Unfinished task found) :
    ∃ target, step.2 = .wait target found.phase :=
  (activity_conclude known unfinished).imp fun _ => And.left

/-- A task that has nothing to do with sources leaves them to those who have. -/
theorem Manned.conclude {step : Step} (manned : step.1.Manned) {activity : Activity Phase}
    (known : step.1.loop.Unfinished task activity) (idle : activity.phase.pulls? = none)
    (next : ∀ target phase, step.2 = .wait target phase → phase.pulls? = none) :
    (conclude task step).Manned where
  reads := by
    intro other found id unfinished pulls
    rw [(conclude_client task step).1]
    by_cases same : other = task
    · subst same
      obtain ⟨target, waits⟩ := phase_conclude known unfinished
      cases (next target _ waits).symm.trans pulls
    · exact manned.reads other found id ((unfinished_conclude known same found).mp unfinished) pulls
  busy := by
    intro id stream there busy
    rw [(conclude_client task step).1] at there
    obtain ⟨other, found, unfinished, pulls⟩ := manned.busy id stream there busy
    have apart : other ≠ task := by
      intro same
      subst same
      cases unfinished.unique known
      rw [pulls] at idle
      cases idle
    exact ⟨other, found, (unfinished_conclude known apart found).mpr unfinished, pulls⟩

/-- A task that has drawn on a source is still inside it if the source is busy. -/
theorem Draws.inside {step : Step} (draws : Draws id old stream.source phase step)
    (manned : old.Manned) {activity : Activity Phase} (known : old.loop.Unfinished task activity)
    (here : activity.phase = phase) (there : old.streams[id]? = some stream)
    (waited : stream.pending = some task) (runs : ∃ runner, step.1.loop.Unfinished task runner)
    {found : Stream} (there' : step.1.streams[id]? = some found) (busy : found.source.busy = true) :
    ∃ found, (conclude task step).loop.Unfinished task found ∧ found.phase = .pulling id := by
  cases draws with
  | ends new source outcome drawn idle =>
    cases there'.symm.trans (drawn.known there)
    obtain ⟨busy', start⟩ := idle busy
    obtain ⟨other, reader, reads, pulls⟩ := manned.busy id stream there busy'
    obtain ⟨stream', there'', waited'⟩ := manned.reads other reader id reads (by rw [pulls]; rfl)
    cases there.symm.trans there''
    cases waited.symm.trans waited'
    cases known.unique reads
    cases pulls.symm.trans (here.trans start)
  | waits new source target drawn =>
    obtain ⟨runner, runs⟩ := runs
    exact ⟨_, (Loop.unfinished_park runs (.pulling id) target task _).mpr (Or.inl ⟨rfl, rfl⟩), rfl⟩

/-- Whoever else reads when a task has drawn on a source did so before. -/
theorem Drawn.reader (drawn : Drawn id source old new) (steady : Steady old new) {other : Nat}
    {found : Activity Phase} {id' : Nat} (unfinished : new.loop.Unfinished other found)
    (pulls : found.phase.pulls? = some id') :
    ∃ before, old.loop.Unfinished other before ∧ before.phase.pulls? = some id' := by
  rcases steady.before other found unfinished with ⟨before, known', phase, -⟩ | ⟨outside, -⟩
  · exact ⟨before, known', phase ▸ pulls⟩
  · rcases drawn.unread other found unfinished.1 with ⟨before, known', -⟩ | aloof
    · exact absurd (Loop.lt_of_activity? _ known') (Nat.not_lt_of_le outside)
    · cases aloof.symm.trans pulls

/-- Drawing on a source changes nothing about who waits for whom. -/
theorem Drawn.waited (drawn : Drawn id source old new) {id' other : Nat}
    (given : ∃ stream, old.streams[id']? = some stream ∧ stream.pending = some other) :
    ∃ stream, new.streams[id']? = some stream ∧ stream.pending = some other := by
  obtain ⟨stream, there, pending⟩ := given
  by_cases here : id' = id
  · subst here
    exact ⟨_, drawn.known there, pending⟩
  · exact ⟨stream, (drawn.others here).trans there, pending⟩

theorem Manned.draws {step : Step} (manned : old.Manned) {activity : Activity Phase}
    (known : old.loop.Unfinished task activity) (pulls : activity.phase.pulls? = some id)
    (there : old.streams[id]? = some stream) (draws : Draws id old stream.source activity.phase step)
    (steady : Steady old step.1) : (Engine.conclude task step).Manned := by
  obtain ⟨runner, runs, -⟩ := steady.after task activity known
  obtain ⟨source, drawn, -⟩ := draws.drawn
  have waited := manned.reads task activity id known pulls
  refine ⟨fun other found id' unfinished pulls' => ?_, fun id' found there' busy => ?_⟩
  · rw [(conclude_client task step).1]
    refine drawn.waited ?_
    by_cases same : other = task
    · subst same
      obtain ⟨target, waits⟩ := phase_conclude runs unfinished
      rw [draws.next waits] at pulls'
      cases pulls'
      exact waited
    · obtain ⟨before, known', pulls''⟩ :=
        drawn.reader steady ((unfinished_conclude runs same found).mp unfinished) pulls'
      exact manned.reads other before id' known' pulls''
  · rw [(conclude_client task step).1] at there'
    by_cases here : id' = id
    · subst here
      obtain ⟨stream', there'', pending⟩ := waited
      cases there.symm.trans there''
      exact ⟨task, draws.inside manned known rfl there pending ⟨runner, runs⟩ there' busy⟩
    · obtain ⟨other, reader, reads, phase⟩ :=
        manned.busy id' found ((drawn.others here).symm.trans there') busy
      have apart : other ≠ task := by
        intro same
        subst same
        cases known.unique reads
        rw [phase] at pulls
        cases pulls
        exact here rfl
      obtain ⟨reader', reads', phase', -⟩ := steady.after other reader reads
      exact ⟨other, reader', (unfinished_conclude runs apart reader').mpr reads', phase'.trans phase⟩

/-- The task that runs has waited for nothing, or for what has ended. -/
theorem done_of_first (coherent : engine.Coherent touched none) {rest : List Handle}
    (first : engine.loop.ready = .wake task :: rest) {activity : Activity Phase}
    (known : engine.loop.Unfinished task activity) {target : Nat}
    (waits : activity.waitingFor = some target) : engine.loop.isDone target = true := by
  obtain ⟨found, known', past, -⟩ := coherent.sound.wake first
  cases known.unique known'
  exact past target waits

/-- Nobody draws on the stream of a completion whose turn it is. -/
theorem Manned.free (manned : engine.Manned) (coherent : engine.Coherent touched none)
    {rest : List Handle} (first : engine.loop.ready = .wake task :: rest)
    {activity : Activity Phase} (known : engine.loop.Unfinished task activity)
    (reads : activity.phase.reads? = some id) (other : Nat) (found : Activity Phase)
    (unfinished : engine.loop.Unfinished other found) : found.phase.pulls? ≠ some id := by
  intro pulls
  cases coherent.fits task activity known nofun with
  | reading stream read run pieces shown phase waits does attached there pending =>
    rw [phase] at reads
    cases reads
    obtain ⟨stream', there', pending'⟩ := manned.reads other found id unfinished pulls
    cases there.symm.trans there'
    cases pending.symm.trans pending'
    have past := done_of_first coherent first known waits
    rw [Loop.isDone_iff] at past
    exact past unfinished.2
  | start _ phase | watching phase | answering _ phase | pulling _ phase | debouncing _ _ phase
  | unwinding _ _ _ phase | calling _ _ phase | closing _ _ _ _ phase =>
    rw [phase] at reads
    cases reads

theorem Manned.wakeFirst (manned : engine.Manned) (rest : List Handle) {activity : Activity Phase}
    (known : engine.loop.Unfinished task activity) :
    ({ engine with loop := engine.loop.wakeFirst rest task activity.phase } : Engine).Manned := by
  refine manned.congr rfl (fun other found unfinished => ?_) fun other found unfinished => ?_
  · rcases (Loop.unfinished_wakeFirst rest known activity.phase other found).mp unfinished with
      ⟨rfl, rfl⟩ | ⟨-, unfinished⟩
    · exact ⟨activity, known, rfl⟩
    · exact ⟨found, unfinished, rfl⟩
  · by_cases same : other = task
    · subst same
      cases known.unique unfinished
      exact ⟨_, (Loop.unfinished_wakeFirst rest known activity.phase other _).mpr (Or.inl ⟨rfl, rfl⟩),
        rfl⟩
    · exact ⟨found, (Loop.unfinished_wakeFirst rest known activity.phase other found).mpr
        (Or.inr ⟨same, unfinished⟩), rfl⟩

theorem Manned.turn (env : Environment) (coherent : engine.Coherent touched none)
    (manned : engine.Manned) : (engine.apply env .turn).Manned := by
  have turned : Turned env engine (engine.apply env .turn) := turned_turn env coherent
  generalize engine.apply env .turn = next at *
  cases turned with
  | idle => exact manned
  | released waiter rest going first =>
    have same := unfinished_release coherent first
    exact manned.congr rfl (fun task activity known => ⟨activity, (same task activity).mp known, rfl⟩)
      fun task activity known => ⟨activity, (same task activity).mpr known, rfl⟩
  | woken task rest activity awake going first known same =>
    subst same
    have awake := manned.wakeFirst rest known
    have runs := (Loop.unfinished_wakeFirst rest known activity.phase task _).mpr (Or.inl ⟨rfl, rfl⟩)
    have steady := (resumed_resume env coherent first known).steady (coherent.wake first known)
    cases flow_resume env coherent manned known
      (show ({ engine with loop := engine.loop.wakeFirst rest task activity.phase } : Engine).streams =
        engine.streams from rfl) (engine.incoming activity) with
    | leaves idle left =>
      have free (id : Nat) (reads : activity.phase.reads? = some id) (other : Nat)
          (found : Activity Phase) (unfinished : (engine.loop.wakeFirst rest task activity.phase).Unfinished
            other found) : found.phase.pulls? ≠ some id := by
        rcases (Loop.unfinished_wakeFirst rest known activity.phase other found).mp unfinished with
          ⟨rfl, rfl⟩ | ⟨-, unfinished⟩
        · rw [idle]
          nofun
        · exact manned.free coherent first known reads other found unfinished
      have loop := loop_freed { engine with loop := engine.loop.wakeFirst rest task activity.phase }
        activity.phase
      have after := (awake.freed free).left left (loop ▸ steady.lasting) (loop ▸ free)
      obtain ⟨runner, runs', phase, -⟩ := steady.after task _ runs
      exact after.conclude runs' (phase ▸ idle) fun target next waits => left.next waits
    | draws id stream pulls there draws => exact awake.draws runs pulls there draws steady

/-- No task changes what the client goes by. -/
theorem manner_turn (env : Environment) (coherent : engine.Coherent touched none)
    (manned : engine.Manned) : (engine.apply env .turn).client.manner = engine.client.manner := by
  have turned : Turned env engine (engine.apply env .turn) := turned_turn env coherent
  generalize engine.apply env .turn = next at *
  cases turned with
  | idle => rfl
  | released => rfl
  | woken task rest activity awake going first known same =>
    subst same
    have flow := flow_resume env coherent manned known
      (show ({ engine with loop := engine.loop.wakeFirst rest task activity.phase } : Engine).streams =
        engine.streams from rfl) (engine.incoming activity)
    exact (congrArg Client.manner (conclude_client task _).2).trans flow.manner

/-! A whole run. -/

/-- Only the client begins reads, and only what it does itself changes its manner. -/
theorem ebb_apply (env : Environment) (engine : Engine) {move : Move} (waits : move ≠ .turn)
    (stays : move ≠ .openGate ∧ move ≠ .closeGate)
    (unscripted : ∀ replies failure ignoresCancel heedless,
      move ≠ .script replies failure ignoresCancel heedless)
    (unrevised : ∀ stream actions farewell closable,
      move ≠ .rescript stream actions farewell closable) : Ebb engine (engine.apply env move) := by
  cases move with
  | turn => exact absurd rfl waits
  | fireTimers | pass => exact .of_same rfl rfl (.of_same fun _ => rfl)
  | request orchestrator document position => exact ebb_spawn engine rfl
  | cancel orchestrator => exact ebb_cancelCurrent engine orchestrator
  | selectModel orchestrator model => exact .of_eq rfl rfl rfl
  | clearCache orchestrator notify =>
    unfold apply clearCacheFor
    dsimp only
    split <;> exact .of_eq rfl rfl rfl
  | cancelTask task =>
    unfold apply cancelCompletion
    dsimp only
    split
    · exact ebb_cancel engine task
    · exact .refl engine
  | abort => exact ebb_abortClient engine
  | openGate => exact absurd rfl stays.1
  | closeGate => exact absurd rfl stays.2
  | proceed waiter =>
    unfold apply proceed
    dsimp only
    split
    · exact .of_same rfl rfl (.of_same fun task => Loop.activity?_settle ..)
    · exact .refl engine
  | script replies failure ignoresCancel heedless => exact absurd rfl (unscripted _ _ _ _)
  | rescript stream actions farewell closable => exact absurd rfl (unrevised _ _ _ _)

theorem Moved.lasting {move : Move} (moved : Moved env engine move new) (waits : move ≠ .turn) :
    Lasting engine.loop new.loop := by
  cases moved with
  | turned => exact absurd rfl waits
  | requested orchestrator document position =>
    refine ⟨fun task activity known => ?_, fun task activity known => ?_⟩
    · exact ⟨activity, (Loop.unfinished_spawn _ task activity).mpr (Or.inr known), rfl⟩
    · rcases (Loop.unfinished_spawn _ task activity).mp known with ⟨same, -⟩ | known
      · exact Or.inr (Nat.le_of_eq same.symm)
      · exact Or.inl ⟨activity, known, rfl⟩
  | cancelled orchestrator next retires => exact retires.steady.lasting
  | selected => exact (Steady.refl engine).lasting
  | cleared orchestrator notify =>
    unfold clearCacheFor
    dsimp only
    split <;> exact (Steady.refl engine).lasting
  | aside move next silent => exact silent.steady.lasting

theorem Manned.apply (env : Environment) (coherent : engine.Coherent touched none)
    (manned : engine.Manned) (move : Move) : (engine.apply env move).Manned := by
  have lasting (waits : move ≠ .turn) := (moved_apply env coherent move).lasting waits
  cases move with
  | turn => exact manned.turn env coherent
  | openGate =>
    -- Whoever stands at the gate is no reader, and the streams do not mind the client.
    have settled : Ebb engine (engine.withLoop fun loop => engine.client.gateWaiters.foldl
        (fun l waiter => l.settle waiter (.value .nothing)) loop) :=
      ebb_withLoop engine _ (.settleAll engine.loop engine.client.gateWaiters (.value .nothing))
    have after := manned.ebb settled (lasting nofun)
    exact ⟨after.reads, after.busy⟩
  | script | closeGate =>
    exact manned.congr rfl (fun task activity known => ⟨activity, known, rfl⟩)
      fun task activity known => ⟨activity, known, rfl⟩
  | rescript id actions farewell closable =>
    have streams (other : Nat) : (engine.apply env (.rescript id actions farewell closable)).streams[other]? =
        if other = id then engine.streams[other]?.map fun s =>
          { s with source := { s.source with actions, farewell, closable } }
        else engine.streams[other]? := getElem?_modify ..
    refine ⟨fun task activity other known pulls => ?_, fun other stream there busy => ?_⟩
    · obtain ⟨stream, there, pending⟩ := manned.reads task activity other known pulls
      rw [streams, there]
      split
      · exact ⟨_, rfl, pending⟩
      · exact ⟨stream, rfl, pending⟩
    · rw [streams] at there
      split at there
      · obtain ⟨before, there', rfl⟩ := Option.map_eq_some_iff.mp there
        exact manned.busy other before there' busy
      · exact manned.busy other stream there busy
  | _ => exact manned.ebb (ebb_apply env engine nofun ⟨nofun, nofun⟩ nofun nofun) (lasting nofun)

/-- In every run a source is busy only while the task draws on it that its stream waits for. -/
theorem manned_play (env : Environment) (client : Client) (seats : List (Settings × Cache Float))
    (moves : List Move) : (reached env client seats moves).Manned := by
  have coherent : (opening client seats).Coherent (fun _ => True) none := coherent_opening client seats
  refine coherent.play_invariant env moves (fun _ _ => trivial)
    (fun engine move coherent manned => manned.apply env coherent move) ⟨?_, nofun⟩
  intro task activity id known
  cases known.1

end Engine

end InlineCompletion
