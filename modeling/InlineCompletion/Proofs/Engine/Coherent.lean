import InlineCompletion.Engine.Move
import InlineCompletion.Proofs.Loop.Strikes

/-!
The state between two steps of a run. Every task that waits does so for what its phase names: a bare
future that the client, a watch or a timer releases, or a task that works for it alone. A task that
works for another one is cancelled only by those who say so, by an abort of the call or stream, or
because the one that waits was cancelled itself.
-/

namespace InlineCompletion

/-- What a task does for another one. -/
inductive Errand where
  | watch (request : Nat)
  | answer
  | pull (stream : Nat)

/-- What only one task at a time works with. -/
inductive Belonging where
  | request (id : Nat)
  | watch (task : Nat)
  | call (task : Nat)
  | stream (id : Nat)
  deriving DecidableEq

namespace Phase

def belongings : Phase → List Belonging
  | .debouncing watch (some run) | .unwinding watch _ (some run) =>
    [.request run.request, .watch watch]
  | .calling call (some run) => [.request run.request, .call call]
  | .reading stream (.completion run _) | .closing stream (.completion run _) =>
    [.request run.request, .stream stream]
  | _ => []

theorem request_mem_belongings {phase : Phase} {run : Run} (works : phase.run? = some run) :
    .request run.request ∈ phase.belongings := by
  unfold run? at works
  split at works
  · simp [works, belongings]
  · simp [works, belongings]
  · simp [works, belongings]
  · cases works
    simp [belongings]
  · cases works
    simp [belongings]
  · cases works

end Phase

/-- All of a stream but its source. -/
def Stream.shell (stream : Stream) : Stream :=
  { stream with source := {} }

theorem Stream.of_shell_eq {stream other : Stream} (same : stream.shell = other.shell) :
    stream.reported = other.reported ∧ stream.aborted = other.aborted ∧
      stream.closed = other.closed ∧ stream.pending = other.pending := by
  simp only [shell, mk.injEq] at same
  obtain ⟨-, reported, -, pending, aborted, closed⟩ := same
  exact ⟨reported, aborted, closed, pending⟩

namespace Engine

variable (engine : Engine)

/-- Nobody but a completion awaits a call or reads a stream here. -/
def Internal : Job → Prop
  | .watch request => request < engine.requests.length
  | .answer _ | .pull _ | .complete .. => True
  | _ => False

/-- The task still does the errand. A watch is among those that its request wakes. -/
def Doing : Errand → Activity Phase → Prop
  | .watch id, activity => activity.phase = .start (.watch id) ∨
    activity.phase = .watching ∧ ∀ waiter, activity.waitingFor = some waiter →
      engine.loop.isPending waiter = true →
      ∃ request, engine.requests[id]? = some request ∧ waiter ∈ request.waiters
  | .answer, activity =>
    (∃ call, activity.phase = .start (.answer call)) ∨ ∃ reply, activity.phase = .answering reply
  | .pull id, activity => activity.phase = .start (.pull id) ∨ activity.phase = .pulling id

/-- The task was made for the errand; it has ended or still does it. -/
def Does (errand : Errand) (task : Nat) : Prop :=
  (∃ activity, engine.loop.activity? task = some activity) ∧
    ∀ activity, engine.loop.Unfinished task activity → engine.Doing errand activity

/-- The task waits for what nobody but the client ends. -/
def Held (activity : Activity Phase) : Prop :=
  ∃ waiter, activity.waitingFor = some waiter ∧ engine.loop.Bare waiter ∧
    (engine.loop.isPending waiter = true → waiter ∈ engine.client.gateWaiters)

/-- The request has not asked the client. -/
def Unasked (request : Nat) : Prop :=
  ∃ found, engine.requests[request]? = some found ∧ found.call = none ∧ found.stream = none

/-- The task waits to be released at the end of a watch. -/
def Vigil (run : Run) (watch : Nat) (activity : Activity Phase) : Prop :=
  ∃ waiter, activity.waitingFor = some waiter ∧ engine.loop.Bare waiter ∧
    engine.loop.Noted watch waiter ∧ engine.Unasked run.request ∧
    engine.Does (.watch run.request) watch

/-- What holds of a task that waits, by its phase. The tasks touched are those that someone wanted
cancelled who had asked for their completions. -/
inductive Fits (touched : Nat → Prop) (running : Option (Nat × Outcome)) (task : Nat)
    (activity : Activity Phase) : Prop where
  | start (job : Job) (phase : activity.phase = .start job) (internal : engine.Internal job)
    (idle : activity.waitingFor = none)
    (wanted : (Phase.start job).isCompletion = true → activity.cancelRequested = true → touched task)
  | watching (phase : activity.phase = .watching)
    (sleeps : ∃ waiter, activity.waitingFor = some waiter ∧ engine.loop.Bare waiter)
  | answering (reply : Reply) (phase : activity.phase = .answering reply)
    (held : engine.Held activity)
  | pulling (stream : Nat) (phase : activity.phase = .pulling stream) (held : engine.Held activity)
  | debouncing (watch : Nat) (run : Run) (phase : activity.phase = .debouncing watch (some run))
    (vigil : engine.Vigil run watch activity)
    (unstruck : ¬engine.loop.Struck running watch)
    (calm : ∀ failure, engine.loop.outcome? watch ≠ some (.failed failure))
    (wanted : engine.loop.Roused activity → touched task)
  | unwinding (watch : Nat) (timedOut : Bool) (run : Run)
    (phase : activity.phase = .unwinding watch timedOut (some run))
    (vigil : engine.Vigil run watch activity)
    (spent : engine.loop.isDone watch = true ∨ engine.loop.Struck running watch)
    (early : timedOut = false → touched task)
    (wanted : engine.loop.Roused activity → touched task)
  | calling (call : Nat) (run : Run) (phase : activity.phase = .calling call (some run))
    (waits : activity.waitingFor = some call)
    (works : engine.Does .answer call)
    (attached : ∃ request, engine.requests[run.request]? = some request ∧
      request.call = some call ∧ request.stream = none)
    (active : call ∈ engine.client.activeCalls)
    (stopped : engine.loop.Struck running call →
      call ∈ engine.client.abortedCalls ∨ touched task)
    (wanted : activity.cancelRequested = true → touched task)
  | reading (stream read : Nat) (run : Run) (pieces : List Text) (found : Stream)
    (phase : activity.phase = .reading stream (.completion run pieces))
    (waits : activity.waitingFor = some read)
    (works : engine.Does (.pull stream) read)
    (attached : ∃ request, engine.requests[run.request]? = some request ∧
      request.stream = some stream)
    (known : engine.streams[stream]? = some found)
    (pending : found.pending = some read)
    (stopped : engine.loop.Struck running read → found.aborted = true ∨ touched task)
    (wanted : activity.cancelRequested = true → touched task)
  | closing (stream : Nat) (run : Run) (outcome : Outcome) (found : Stream)
    (phase : activity.phase = .closing stream (.completion run outcome))
    (held : engine.Held activity)
    (attached : ∃ request, engine.requests[run.request]? = some request ∧
      request.stream = some stream)
    (known : engine.streams[stream]? = some found)
    (stopped : outcome = .cancelled → touched task)
    (wanted : engine.loop.Roused activity → touched task)

/-- What a request has asked for is stopped. -/
def Halted (request : Request) : Prop :=
  request.waiters = [] ∧
    (∀ stream, request.stream = some stream →
      ∃ found, engine.streams[stream]? = some found ∧ found.aborted = true) ∧
    ∀ call, request.stream = none → request.call = some call → .stoppedCall call ∈ engine.events

/-- A request wakes bare futures, and once it is cancelled there is nothing left to stop. -/
structure Proper (request : Request) : Prop where
  waiters : ∀ waiter ∈ request.waiters, engine.loop.Bare waiter
  attached : ∀ stream, request.stream = some stream → stream < engine.streams.length
  halted : request.cancelled = true → engine.Halted request

/-- A stream is active until it is closed, and then it is no longer known to the client. -/
structure Orderly (id : Nat) (stream : Stream) : Prop where
  reported : stream.reported = true
  aborted : stream.aborted = true → stream.closed = true
  closed : stream.closed = true → id ∉ engine.client.activeStreams
  pending : ∀ read, stream.pending = some read → engine.Does (.pull id) read

/-- Holds between two steps of a run, and while a task runs with what it goes on with. -/
structure Coherent (touched : Nat → Prop) (running : Option (Nat × Outcome)) : Prop where
  sound : engine.loop.Sound (running.map Prod.fst)
  gate : ∀ waiter ∈ engine.client.gateWaiters, engine.loop.Bare waiter
  open_gate : engine.client.gateOpen = true → engine.client.gateWaiters = []
  requests : ∀ (id : Nat) (request : Request), engine.requests[id]? = some request →
    engine.Proper request
  streams : ∀ (id : Nat) (stream : Stream), engine.streams[id]? = some stream →
    engine.Orderly id stream
  activeStreams : ∀ id ∈ engine.client.activeStreams, id < engine.streams.length
  calls : ∀ call ∈ engine.client.activeCalls, engine.Does .answer call
  /-- No two tasks work with one thing. -/
  apart : ∀ first second activity other belonging, engine.loop.Unfinished first activity →
    engine.loop.Unfinished second other → belonging ∈ activity.phase.belongings →
    belonging ∈ other.phase.belongings → first = second
  fits : ∀ task activity, engine.loop.Unfinished task activity →
    running.map Prod.fst ≠ some task → engine.Fits touched running task activity

/-! A task that waits is left alone by the steps of others. -/

/-- Whoever is struck was to be stopped: the completion itself, its call or its stream. -/
structure Blamed (touched struck : Nat → Prop) (task : Nat) (activity : Activity Phase) : Prop where
  wanted : struck task → activity.phase.isCompletion = true → touched task
  watch : ∀ watch owner, activity.phase = .debouncing watch owner → ¬struck watch
  call : ∀ call owner, activity.phase = .calling call owner → struck call →
    call ∈ engine.client.abortedCalls ∨ touched task
  read : ∀ stream consumer read found, activity.phase = .reading stream consumer →
    activity.waitingFor = some read → engine.streams[stream]? = some found → struck read →
    found.aborted = true ∨ touched task

/-- A step does no harm to those who wait: what it changes is its own or, at most, strikes others. -/
structure Tended (mine : Belonging → Prop) (struck : Nat → Prop)
    (before after : Option (Nat × Outcome)) (old new : Engine) : Prop where
  bare : ∀ id, old.loop.Bare id → new.loop.Bare id
  noted : ∀ id waiter, old.loop.Noted id waiter → new.loop.Noted id waiter
  does : ∀ errand task, old.Does errand task → new.Does errand task
  calm : ∀ request task failure, old.Does (.watch request) task →
    new.loop.outcome? task = some (.failed failure) →
    old.loop.outcome? task = some (.failed failure)
  hits : ∀ errand task, old.Does errand task → new.loop.Struck after task →
    old.loop.Struck before task ∨ struck task
  spent : ∀ request task, old.Does (.watch request) task →
    old.loop.isDone task = true ∨ old.loop.Struck before task →
    new.loop.isDone task = true ∨ new.loop.Struck after task
  held : ∀ activity, old.Held activity → new.Held activity
  size : old.requests.length ≤ new.requests.length
  requests : ∀ (id : Nat) (request : Request), old.requests[id]? = some request →
    ¬mine (.request id) → ∃ found, new.requests[id]? = some found ∧ found.call = request.call ∧
      found.stream = request.stream
  activeCalls : ∀ call ∈ old.client.activeCalls, ¬mine (.call call) →
    call ∈ new.client.activeCalls
  abortedCalls : ∀ call ∈ old.client.abortedCalls, ¬mine (.call call) →
    call ∈ new.client.abortedCalls
  streams : ∀ (id : Nat) (stream : Stream), old.streams[id]? = some stream →
    ¬mine (.stream id) → ∃ found, new.streams[id]? = some found ∧
      found.pending = stream.pending ∧ (stream.aborted = true → found.aborted = true)

variable {engine}

theorem Internal.of_le {new : Engine} {job : Job} (internal : engine.Internal job)
    (size : engine.requests.length ≤ new.requests.length) : new.Internal job := by
  cases job with
  | watch request => exact Nat.lt_of_lt_of_le internal size
  | answer | pull | complete => trivial
  | debounce | chat | next | collect | close => exact internal

theorem Held.congr {activity other : Activity Phase} (held : engine.Held activity)
    (waiting : other.waitingFor = activity.waitingFor) : engine.Held other := by
  obtain ⟨waiter, waits, rest⟩ := held
  exact ⟨waiter, waiting.trans waits, rest⟩

theorem Held.waits {activity : Activity Phase} (held : engine.Held activity) :
    ∃ waiter, activity.waitingFor = some waiter ∧ engine.loop.Bare waiter := by
  obtain ⟨waiter, waits, bare, -⟩ := held
  exact ⟨waiter, waits, bare⟩

theorem Vigil.waits {run : Run} {watch : Nat} {activity : Activity Phase}
    (vigil : engine.Vigil run watch activity) :
    ∃ waiter, activity.waitingFor = some waiter ∧ engine.loop.Bare waiter := by
  obtain ⟨waiter, waits, bare, -⟩ := vigil
  exact ⟨waiter, waits, bare⟩

theorem Vigil.does {run : Run} {watch : Nat} {activity : Activity Phase}
    (vigil : engine.Vigil run watch activity) : engine.Does (.watch run.request) watch := by
  obtain ⟨_, -, -, -, -, does⟩ := vigil
  exact does

/-! What holds of a task whose phase is known. -/

section Phases

variable {touched : Nat → Prop} {running : Option (Nat × Outcome)} {task : Nat} {activity : Activity Phase}

theorem Fits.of_start (fits : engine.Fits touched running task activity) {job : Job}
    (phase : activity.phase = .start job) : activity.waitingFor = none := by
  cases fits with
  | start job' phase' internal idle => exact idle
  | watching phase' | answering _ phase' | pulling _ phase' | debouncing _ _ phase' | unwinding _ _ _ phase'
  | calling _ _ phase' | reading _ _ _ _ _ phase' | closing _ _ _ _ phase' => cases phase.symm.trans phase'

theorem Fits.of_debouncing (fits : engine.Fits touched running task activity) {watch : Nat}
    {owner : Option Run} (phase : activity.phase = .debouncing watch owner) : ∃ run, owner = some run ∧
      engine.Vigil run watch activity ∧ ¬engine.loop.Struck running watch := by
  cases fits with
  | debouncing watch' run phase' vigil unstruck =>
    cases phase.symm.trans phase'
    exact ⟨run, rfl, vigil, unstruck⟩
  | start _ phase' | watching phase' | answering _ phase' | pulling _ phase' | unwinding _ _ _ phase'
  | calling _ _ phase' | reading _ _ _ _ _ phase' | closing _ _ _ _ phase' => cases phase.symm.trans phase'

theorem Fits.of_unwinding (fits : engine.Fits touched running task activity) {watch : Nat}
    {timedOut : Bool} {owner : Option Run} (phase : activity.phase = .unwinding watch timedOut owner) :
    ∃ run, owner = some run ∧ engine.Vigil run watch activity ∧
      (engine.loop.isDone watch = true ∨ engine.loop.Struck running watch) := by
  cases fits with
  | unwinding watch' timedOut' run phase' vigil spent =>
    cases phase.symm.trans phase'
    exact ⟨run, rfl, vigil, spent⟩
  | start _ phase' | watching phase' | answering _ phase' | pulling _ phase' | debouncing _ _ phase'
  | calling _ _ phase' | reading _ _ _ _ _ phase' | closing _ _ _ _ phase' => cases phase.symm.trans phase'

theorem Fits.of_calling (fits : engine.Fits touched running task activity) {call : Nat}
    {owner : Option Run} (phase : activity.phase = .calling call owner) : ∃ run, owner = some run ∧
      activity.waitingFor = some call ∧ engine.Does .answer call ∧
      ∃ request, engine.requests[run.request]? = some request ∧ request.call = some call ∧
        request.stream = none := by
  cases fits with
  | calling call' run phase' waits works attached =>
    cases phase.symm.trans phase'
    exact ⟨run, rfl, waits, works, attached⟩
  | start _ phase' | watching phase' | answering _ phase' | pulling _ phase' | debouncing _ _ phase'
  | unwinding _ _ _ phase' | reading _ _ _ _ _ phase' | closing _ _ _ _ phase' =>
    cases phase.symm.trans phase'

theorem Fits.of_reading (fits : engine.Fits touched running task activity) {stream : Nat}
    {consumer : Consumer} (phase : activity.phase = .reading stream consumer) :
    ∃ run pieces read found, consumer = .completion run pieces ∧ activity.waitingFor = some read ∧
      engine.Does (.pull stream) read ∧ (∃ request, engine.requests[run.request]? = some request ∧
      request.stream = some stream) ∧ engine.streams[stream]? = some found ∧
      found.pending = some read := by
  cases fits with
  | reading stream' read run pieces found phase' waits works attached known pending =>
    cases phase.symm.trans phase'
    exact ⟨run, pieces, read, found, rfl, waits, works, attached, known, pending⟩
  | start _ phase' | watching phase' | answering _ phase' | pulling _ phase' | debouncing _ _ phase'
  | unwinding _ _ _ phase' | calling _ _ phase' | closing _ _ _ _ phase' => cases phase.symm.trans phase'

theorem Fits.of_closing (fits : engine.Fits touched running task activity) {stream : Nat}
    {closer : Closer} (phase : activity.phase = .closing stream closer) :
    ∃ run outcome found, closer = .completion run outcome ∧ engine.Held activity ∧
      (∃ request, engine.requests[run.request]? = some request ∧ request.stream = some stream) ∧
      engine.streams[stream]? = some found ∧ (engine.loop.Roused activity → touched task) := by
  cases fits with
  | closing stream' run' outcome' found phase' held attached known stopped wanted =>
    cases phase.symm.trans phase'
    exact ⟨run', outcome', found, rfl, held, attached, known, wanted⟩
  | start _ phase' | watching phase' | answering _ phase' | pulling _ phase' | debouncing _ _ phase'
  | unwinding _ _ _ phase' | calling _ _ phase' | reading _ _ _ _ _ phase' => cases phase.symm.trans phase'

/-- The stream that a task works with is there. -/
theorem Fits.there {id : Nat} (fits : engine.Fits touched running task activity)
    (member : .stream id ∈ activity.phase.belongings) : ∃ stream, engine.streams[id]? = some stream := by
  cases fits with
  | reading stream read run pieces found phase waits does attached known
  | closing stream run outcome found phase held attached known =>
    rw [phase] at member
    obtain rfl : id = stream := by simpa [Phase.belongings] using member
    exact ⟨found, known⟩
  | start _ phase | watching phase | answering _ phase | pulling _ phase | debouncing _ _ phase
  | unwinding _ _ _ phase | calling _ _ phase =>
    rw [phase] at member
    simp [Phase.belongings] at member

end Phases

namespace Tended

variable {mine : Belonging → Prop} {struck touched : Nat → Prop}
  {before after : Option (Nat × Outcome)} {old new : Engine}

theorem unasked (tended : Tended mine struck before after old new) {id : Nat}
    (unasked : old.Unasked id) (other : ¬mine (.request id)) : new.Unasked id := by
  obtain ⟨request, found, call, stream⟩ := unasked
  obtain ⟨next, found', call', stream'⟩ := tended.requests id request found other
  exact ⟨next, found', call'.trans call, stream'.trans stream⟩

theorem vigil (tended : Tended mine struck before after old new) {run : Run} {watch : Nat}
    {activity next : Activity Phase} (vigil : old.Vigil run watch activity)
    (waiting : next.waitingFor = activity.waitingFor) (other : ¬mine (.request run.request)) :
    new.Vigil run watch next := by
  obtain ⟨waiter, waits, bare, noted, unasked, does⟩ := vigil
  exact ⟨waiter, waiting.trans waits, tended.bare waiter bare, tended.noted watch waiter noted,
    tended.unasked unasked other, tended.does _ watch does⟩

theorem fits (tended : Tended mine struck before after old new) {task : Nat}
    {activity next : Activity Phase} (fits : old.Fits touched before task activity)
    (others : ∀ belonging ∈ activity.phase.belongings, ¬mine belonging)
    (phase : next.phase = activity.phase) (waiting : next.waitingFor = activity.waitingFor)
    (requested : next.cancelRequested = true → activity.cancelRequested = true ∨ struck task)
    (roused : ∀ waiter, activity.waitingFor = some waiter → old.loop.Bare waiter →
      new.loop.Roused next → old.loop.Roused activity ∨ struck task)
    (blamed : new.Blamed touched struck task activity) : new.Fits touched after task next := by
  have works {run : Run} (runs : activity.phase.run? = some run) :
      activity.phase.isCompletion = true := by
    simp [Phase.isCompletion, runs]
  cases fits with
  | start job phase' internal idle wanted =>
    refine .start job (phase.trans phase') (internal.of_le tended.size) (waiting.trans idle) ?_
    exact fun completes hit =>
      (requested hit).elim (wanted completes) fun hit => blamed.wanted hit (phase' ▸ completes)
  | watching phase' sleeps =>
    obtain ⟨waiter, waits, bare⟩ := sleeps
    exact .watching (phase.trans phase') ⟨waiter, waiting.trans waits, tended.bare waiter bare⟩
  | answering reply phase' held =>
    exact .answering reply (phase.trans phase') ((tended.held activity held).congr waiting)
  | pulling stream phase' held =>
    exact .pulling stream (phase.trans phase') ((tended.held activity held).congr waiting)
  | debouncing watch run phase' vigil unstruck calm wanted =>
    have runs : activity.phase.run? = some run := by rw [phase']; rfl
    have other := others _ (Phase.request_mem_belongings runs)
    have does := vigil.does
    refine .debouncing watch run (phase.trans phase') (tended.vigil vigil waiting other) ?_ ?_ ?_
    · intro hit
      exact (tended.hits _ watch does hit).elim unstruck (blamed.watch watch _ phase')
    · exact fun failure failed => calm failure (tended.calm _ watch failure does failed)
    · obtain ⟨waiter, waits, bare⟩ := vigil.waits
      exact fun hit => (roused waiter waits bare hit).elim wanted
        fun hit => blamed.wanted hit (works runs)
  | unwinding watch timedOut run phase' vigil spent early wanted =>
    have runs : activity.phase.run? = some run := by rw [phase']; rfl
    have other := others _ (Phase.request_mem_belongings runs)
    have does := vigil.does
    refine .unwinding watch timedOut run (phase.trans phase') (tended.vigil vigil waiting other)
      (tended.spent _ watch does spent) early ?_
    obtain ⟨waiter, waits, bare⟩ := vigil.waits
    exact fun hit => (roused waiter waits bare hit).elim wanted
      fun hit => blamed.wanted hit (works runs)
  | calling call run phase' waits does attached active stopped wanted =>
    obtain ⟨request, found, same, none⟩ := attached
    have runs : activity.phase.run? = some run := by rw [phase']; rfl
    have other := others _ (Phase.request_mem_belongings runs)
    have own : ¬mine (.call call) := others _ (by simp [phase', Phase.belongings])
    obtain ⟨request', found', same', none'⟩ := tended.requests _ request found other
    refine .calling call run (phase.trans phase') (waiting.trans waits) (tended.does _ call does)
      ⟨request', found', same'.trans same, none'.trans none⟩ (tended.activeCalls call active own)
      ?_ ?_
    · intro hit
      rcases tended.hits _ call does hit with before | now
      · exact (stopped before).imp_left fun aborted => tended.abortedCalls call aborted own
      · exact blamed.call call _ phase' now
    · exact fun hit =>
        (requested hit).elim wanted fun hit => blamed.wanted hit (works runs)
  | reading stream read run pieces found phase' waits does attached known pending stopped wanted =>
    obtain ⟨request, known', same⟩ := attached
    have runs : activity.phase.run? = some run := by rw [phase']; rfl
    have other := others _ (Phase.request_mem_belongings runs)
    have own : ¬mine (.stream stream) := others _ (by simp [phase', Phase.belongings])
    obtain ⟨request', found', -, same'⟩ := tended.requests _ request known' other
    obtain ⟨next', known'', pending', aborted⟩ := tended.streams stream found known own
    refine .reading stream read run pieces next' (phase.trans phase') (waiting.trans waits)
      (tended.does _ read does) ⟨request', found', same'.trans same⟩ known''
      (pending'.trans pending) ?_ ?_
    · intro hit
      rcases tended.hits _ read does hit with before | now
      · exact (stopped before).imp_left aborted
      · exact blamed.read stream _ read next' phase' waits known'' now
    · exact fun hit =>
        (requested hit).elim wanted fun hit => blamed.wanted hit (works runs)
  | closing stream run outcome found phase' held attached known stopped wanted =>
    obtain ⟨request, known', same⟩ := attached
    have runs : activity.phase.run? = some run := by rw [phase']; rfl
    have other := others _ (Phase.request_mem_belongings runs)
    have own : ¬mine (.stream stream) := others _ (by simp [phase', Phase.belongings])
    obtain ⟨request', found', -, same'⟩ := tended.requests _ request known' other
    obtain ⟨next', known'', -, -⟩ := tended.streams stream found known own
    refine .closing stream run outcome next' (phase.trans phase')
      ((tended.held activity held).congr waiting) ⟨request', found', same'.trans same⟩ known''
      stopped ?_
    obtain ⟨waiter, waits, bare⟩ := held.waits
    exact fun hit => (roused waiter waits bare hit).elim wanted
      fun hit => blamed.wanted hit (works runs)

end Tended

end Engine

end InlineCompletion
