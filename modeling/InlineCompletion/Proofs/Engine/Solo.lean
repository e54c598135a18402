import InlineCompletion.Proofs.Engine.Outcomes

/-!
One request on its own. What it comes to is a function of its document, the cache and the reply, and of
two readings of the clock. Nobody else is there, so that the loop holds its tasks and no others, and a
debounce can only end.
-/

namespace InlineCompletion

/-! Lists. -/

theorem getElem?_last {α : Type} (first : α) (others : List α) (last : α) :
    (first :: (others ++ [last]))[others.length + 1]? = some last := by
  rw [List.getElem?_cons_succ, List.getElem?_concat_length]

theorem modify_last {α : Type} (first : α) (others : List α) (last : α) (f : α → α) :
    (first :: (others ++ [last])).modify (others.length + 1) f = first :: (others ++ [f last]) := by
  rw [List.modify_succ_cons]
  congr 1
  induction others with
  | nil => rfl
  | cons other rest ih => rw [List.cons_append, List.length_cons, List.modify_succ_cons, ih, List.cons_append]

/-! What one completion comes to. -/

/-- What a completion leaves behind. -/
structure Report where
  outcome : Outcome
  cache : Cache Float
  notices : List Notice

/-- What is in a cache for a request at some time, and the cache after the look at it. -/
def Run.found (run : Run) (env : Environment) (cache : Cache Float) (now : Nat) :
    Option (CacheEntry Float) × Cache Float :=
  match run.key with
  | none => (none, cache)
  | some key =>
    let (found, cache) := cache.get key (env.clock now)
    (found.filter fun entry => !Reuse.isUnsafe entry run.document run.position run.facts, cache)

/-- What is made of a reply. -/
def Run.used (run : Run) (env : Environment) (settings : Settings) (cache : Cache Float)
    (reply : Text) (now : Nat) : Report :=
  let cleaned := Reply.clean reply run.facts run.typed (run.existing settings)
  if cleaned.isEmpty then ⟨.value .nothing, cache, []⟩
  else ⟨.value (run.insertion cleaned),
    (match run.key with
      | none => cache
      | some key => cache.put key (env.clock now) cleaned run.typed), []⟩

/-- What a request comes to whose debounce is over. -/
def Run.awaited (run : Run) (env : Environment) (settings : Settings) (cache : Cache Float) (reply : Text)
    (now : Nat) : Report :=
  if (Text.trim settings.model).isEmpty then ⟨.value .nothing, cache, [.noModel]⟩
  else run.used env settings cache reply now

/-- What a completion comes to that begins at one time and ends at another, and that nobody disturbs. -/
def Run.report (run : Run) (env : Environment) (settings : Settings) (cache : Cache Float)
    (reply : Text) (begun ended : Nat) : Report :=
  match run.found env cache begun with
  | (some entry, cache) => ⟨.value (run.insertion entry.completion), cache, []⟩
  | (none, cache) =>
    if settings.debounceOverflows then ⟨.failed Settings.delayOverflow, cache, []⟩
    else run.awaited env settings cache reply ended

section Report

variable {run : Run} {env : Environment} {settings : Settings} {cache after : Cache Float} {reply : Text}
  {begun ended : Nat}

theorem Run.report_of_found {entry : CacheEntry Float}
    (found : run.found env cache begun = (some entry, after)) :
    run.report env settings cache reply begun ended =
      ⟨.value (run.insertion entry.completion), after, []⟩ := by
  unfold Run.report
  rw [found]

theorem Run.report_of_missed (missed : run.found env cache begun = (none, after)) :
    run.report env settings cache reply begun ended =
      if settings.debounceOverflows then ⟨.failed Settings.delayOverflow, after, []⟩
      else run.awaited env settings after reply ended := by
  unfold Run.report
  rw [missed]

/-- Of the times only the readings of the clock matter, and that of the end only for the cache. -/
theorem Run.report_congr {begun' ended' : Nat} (begins : env.clock begun = env.clock begun') :
    (run.report env settings cache reply begun ended).outcome =
        (run.report env settings cache reply begun' ended').outcome ∧
      (run.report env settings cache reply begun ended).notices =
        (run.report env settings cache reply begun' ended').notices ∧
      (env.clock ended = env.clock ended' → (run.report env settings cache reply begun ended).cache =
        (run.report env settings cache reply begun' ended').cache) := by
  have found : run.found env cache begun = run.found env cache begun' := by
    unfold Run.found
    rw [begins]
  unfold Run.report
  rw [found]
  rcases run.found env cache begun' with ⟨_ | entry, after⟩
  · dsimp only
    split
    · exact ⟨rfl, rfl, fun _ => rfl⟩
    · unfold Run.awaited
      split
      · exact ⟨rfl, rfl, fun _ => rfl⟩
      · unfold Run.used
        dsimp only
        split
        · exact ⟨rfl, rfl, fun _ => rfl⟩
        · exact ⟨rfl, rfl, fun ends => by rw [ends]⟩
  · exact ⟨rfl, rfl, fun _ => rfl⟩

end Report

/-- The cache has no answer and the debounce ends, so that a reply is made use of. -/
def Run.Asks (run : Run) (env : Environment) (settings : Settings) (cache : Cache Float) (reply : Text)
    (begun : Nat) : Prop :=
  ∀ ended, run.report env settings cache reply begun ended =
    run.used env settings (run.found env cache begun).2 reply ended

theorem Run.used_value (run : Run) (env : Environment) (settings : Settings) (cache : Cache Float)
    (reply : Text) (now : Nat) : ∃ v, (run.used env settings cache reply now).outcome = .value v ∧
      (run.used env settings cache reply now).notices = [] := by
  unfold Run.used
  dsimp only
  split
  · exact ⟨_, rfl, rfl⟩
  · exact ⟨_, rfl, rfl⟩

/-- The loop goes on and time passes, and nobody does anything. -/
def Move.idle : Move → Bool
  | .turn | .fireTimers | .pass _ => true
  | _ => false

/-- The time that passes before the first turn. -/
def Move.lead : List Move → Nat
  | .pass nanoseconds :: rest => nanoseconds + lead rest
  | .turn :: _ | [] => 0
  | _ :: rest => lead rest

/-! What the loop looks like while one request is under way. -/

/-- The first task runs, and nothing else is to be done. -/
def Loop.running (now : Nat) (phase : Phase) (others : List (Future Phase)) : Loop Phase where
  now := now
  futures := { activity := some { phase } } :: others

/-- The first task waits for one that is about to begin. -/
def Loop.forked (now : Nat) (phase : Phase) (others : List (Future Phase)) (job : Job) : Loop Phase where
  now := now
  futures := { activity := some { phase, waitingFor := some (others.length + 1) } } ::
    (others ++ [{ watchers := [.wake 0], activity := some { phase := .start job } }])
  ready := [.wake (others.length + 1)]

/-- A task whose job has ended. -/
def Future.settled (job : Job) (outcome : Outcome) : Future Phase :=
  { outcome := some outcome, activity := some { phase := .start job } }

/-- What the first task has waited for has ended. -/
def Loop.joined (now : Nat) (phase : Phase) (others : List (Future Phase)) (job : Job) (outcome : Outcome) :
    Loop Phase where
  now := now
  futures := { activity := some { phase, waitingFor := some (others.length + 1) } } ::
    (others ++ [.settled job outcome])
  ready := [.wake 0]

/-- The first task has ended. -/
def Loop.over (now : Nat) (phase : Phase) (others : List (Future Phase)) (outcome : Outcome) :
    Loop Phase where
  now := now
  futures := { outcome := some outcome, activity := some { phase } } :: others

namespace Engine

variable {env : Environment} {settings : Settings} {cache : Cache Float} {document : Document}
  {position : Position} {run : Run} {engine new : Engine} {now : Nat} {phase : Phase}
  {others : List (Future Phase)} {job : Job} {outcome : Outcome}

/-- The loop runs a task whose turn it is. -/
theorem turn_of_ready (going : engine.interrupted = none) {task : Nat} {rest : List Handle}
    {loop : Loop Phase} (first : loop.ready = .wake task :: rest) :
    ({ engine with loop } : Engine).apply env .turn =
      ({ engine with loop := { loop with ready := rest } } : Engine).runTask env task := by
  show (({ engine with loop } : Engine).turn? env).getD _ = _
  unfold turn? Loop.next?
  simp only [going, first]
  rfl

theorem runTask_of_known {task : Nat} {f : Future Phase} {activity : Activity Phase}
    (known : engine.loop.futures[task]? = some f) (unended : f.outcome = none)
    (active : f.activity = some activity) : engine.runTask env task =
      conclude task ((engine.withLoop (·.setActivity task { phase := activity.phase })).resume env
        activity.phase (engine.incoming activity)) := by
  obtain ⟨o, w, a⟩ := f
  cases unended
  cases active
  unfold runTask
  simp only [known]

theorem conclude_done (tame : ∀ failure, outcome = .failed failure → failure.kind ≠ .interrupt) (task : Nat) :
    conclude task (engine, .done outcome) = engine.withLoop (·.settle task outcome) := by
  unfold conclude
  dsimp only
  cases outcome with
  | failed failure => exact if_neg (tame failure rfl)
  | value | cancelled => rfl

/-- The job of the second task is done in one turn. -/
theorem turn_forked (engine new : Engine) (going : engine.interrupted = none) (now : Nat) (phase : Phase)
    (others : List (Future Phase)) (job : Job) (outcome : Outcome)
    (calm : ∀ failure, outcome ≠ .failed failure)
    (ends : ({ engine with loop := { Loop.forked now phase others job with ready := [] } } :
      Engine).resume env (.start job) (.value .nothing) =
        ({ new with loop := { Loop.forked now phase others job with ready := [] } }, .done outcome)) :
    ({ engine with loop := Loop.forked now phase others job } : Engine).apply env .turn =
      { new with loop := Loop.joined now phase others job outcome } := by
  rw [turn_of_ready going rfl, runTask_of_known (getElem?_last ..) rfl rfl]
  have awake : ({ engine with loop := { Loop.forked now phase others job with ready := [] } } :
      Engine).withLoop (·.setActivity (others.length + 1) { phase := .start job }) =
        { engine with loop := { Loop.forked now phase others job with ready := [] } } := by
    unfold withLoop Loop.setActivity Loop.modifyFuture Loop.forked
    dsimp only
    rw [modify_last]
  have settled : ({ Loop.forked now phase others job with ready := [] } : Loop Phase).settle
      (others.length + 1) outcome = Loop.joined now phase others job outcome := by
    unfold Loop.settle Loop.forked
    dsimp only
    rw [getElem?_last]
    simp only [Loop.modifyFuture, modify_last]
    rfl
  show conclude _ (Engine.resume _ env (.start job) (.value .nothing)) = _
  rw [awake, ends]
  rw [conclude_done fun failure same => absurd same (calm failure)]
  exact congrArg (fun loop => ({ new with loop } : Engine)) settled

/-- The first task gets what the second one came to. -/
theorem turn_joined (env : Environment) (engine : Engine) (going : engine.interrupted = none) (now : Nat)
    (phase : Phase) (others : List (Future Phase)) (job : Job) (outcome : Outcome) :
    ({ engine with loop := Loop.joined now phase others job outcome } : Engine).apply env .turn =
      conclude 0 (({ engine with loop := Loop.running now phase (others ++ [.settled job outcome]) } :
        Engine).resume env phase outcome) := by
  rw [turn_of_ready going rfl, runTask_of_known rfl rfl rfl]
  have comes : ({ engine with loop := { Loop.joined now phase others job outcome with ready := [] } } :
      Engine).incoming { phase, waitingFor := some (others.length + 1) } = outcome := by
    show ((Loop.outcome? _ (others.length + 1))).getD _ = outcome
    unfold Loop.outcome? Loop.joined
    dsimp only
    rw [getElem?_last]
    rfl
  rw [comes]
  rfl

/-- An engine with one orchestrator, which has made one request. -/
abbrev sole (client : Client) (loop : Loop Phase) (streams : List Stream) (request : Request)
    (o : Orchestrator) (events : List Event) : Engine where
  client := client
  loop := loop
  streams := streams
  requests := [request]
  orchestrators := [o]
  events := events

/-- The orchestrator while its first request is under way. -/
def seated (settings : Settings) (cache : Cache Float) (stage : Stage) : Orchestrator :=
  { Orchestrator.ofCache settings cache with generation := 1, current := some 0, stage }

/-- The orchestrator when that request has ended. -/
def vacated (settings : Settings) (cache : Cache Float) : Orchestrator :=
  { Orchestrator.ofCache settings cache with generation := 1, stage := .done }

/-- The request that an orchestrator makes first. -/
abbrev soleRun (env : Environment) (settings : Settings) (document : Document) (position : Position) : Run :=
  .entering env settings 0 0 document position

variable {client : Client} {loop : Loop Phase} {streams : List Stream} {request : Request} {stage : Stage}
  {events : List Event} {reply : Text}

theorem endRun_sole (mine : run = soleRun env settings document position)
    (uncancelled : request.cancelled = false) (outcome : Outcome) :
    (sole client loop streams request (seated settings cache stage) events).endRun run outcome =
      (sole client loop streams request (vacated settings cache) events, .done outcome) := by
  obtain ⟨generation, cancelled, waiters, stream, call⟩ := request
  cases uncancelled
  subst mine
  rfl

theorem lookUp_sole (mine : run = soleRun env settings document position) (client : Client)
    (loop : Loop Phase) (cache : Cache Float) : ∃ events, warnings events = [] ∧
      (sole client loop [] { generation := 1 } (seated settings cache .idle) []).lookUp env run cache =
        ((run.found env cache loop.now).1, sole client loop [] { generation := 1 }
          (seated settings (run.found env cache loop.now).2 .idle) events) := by
  unfold lookUp Run.found
  subst mine
  cases (soleRun env settings document position).key with
  | none => exact ⟨[], rfl, rfl⟩
  | some key => exact ⟨[.consulted 0 0 key], rfl, rfl⟩

/-- The request looks into the cache, and waits unless it finds something there. -/
theorem startCompletion_sole (mine : run = soleRun env settings document position) (client : Client)
    (loop : Loop Phase) (cache : Cache Float) : ∃ events, warnings events = [] ∧
      let step := ({ client, loop, orchestrators := [Orchestrator.ofCache settings cache] } :
        Engine).startCompletion env 0 document position
      (∀ entry after, run.found env cache loop.now = (some entry, after) →
        step = (sole client loop [] { generation := 1 } (vacated settings after) events,
          .done (.value (run.insertion entry.completion)))) ∧
      ∀ after, run.found env cache loop.now = (none, after) →
        step = (sole client loop [] { generation := 1 }
          (seated settings after .idle) events).awaitDebounce env
          run settings := by
  obtain ⟨events, quiet, looked⟩ := lookUp_sole mine client loop cache
  have entered : ({ client, loop, orchestrators := [Orchestrator.ofCache settings cache] } :
      Engine).beginRequest 0 =
        (0, sole client loop [] { generation := 1 } (seated settings cache .idle) []) := rfl
  have settled : (seated settings cache .idle).settings = settings := rfl
  have shelved : (seated settings cache .idle).cache = cache := rfl
  subst mine
  unfold startCompletion
  rw [entered]
  dsimp only [List.getElem?_cons_zero]
  rw [settled, shelved]
  unfold soleRun Run.entering at looked ⊢
  rw [looked]
  refine ⟨events, quiet, fun entry after found => ?_, fun after found => ?_⟩
  · rw [found]
    rfl
  · rw [found]

/-- The request makes use of the reply. -/
theorem afterCall_sole (mine : run = soleRun env settings document position)
    (uncancelled : request.cancelled = false) (client : Client) (loop : Loop Phase)
    (streams : List Stream) (cache : Cache Float) (stage : Stage) (quiet : warnings events = [])
    (reply : Text) : ∃ events', warnings events' = [] ∧
      (sole client loop streams request (seated settings cache stage) events).afterCall env run
        (.value (.text reply)) =
      (sole client loop streams request
          (vacated settings (run.used env settings cache reply loop.now).cache) events',
        .done (run.used env settings cache reply loop.now).outcome) := by
  have live : (sole client loop streams request (seated settings cache stage) events).isLive run = true := by
    obtain ⟨generation, cancelled, waiters, stream, call⟩ := request
    cases uncancelled
    subst mine
    rfl
  have seat : run.orchestrator = 0 ∧ run.request = 0 := mine ▸ ⟨rfl, rfl⟩
  have accepts : (sole client loop streams request (seated settings cache stage) events).afterCall env run
      (.value (.text reply)) =
        if (Reply.clean reply run.facts run.typed (run.existing settings)).isEmpty then
          (sole client loop streams request (seated settings cache stage) events).endRun run (.value .nothing)
        else ((sole client loop streams request (seated settings cache stage) events).store env run
          (Reply.clean reply run.facts run.typed (run.existing settings))).endRun run
            (.value (run.insertion (Reply.clean reply run.facts run.typed (run.existing settings)))) := by
    unfold afterCall acceptReply
    rw [live, seat.1]
    rfl
  rw [accepts]
  unfold Run.used
  dsimp only
  generalize Reply.clean reply run.facts run.typed (run.existing settings) = cleaned
  cases cleaned with
  | nil => exact ⟨events, quiet, endRun_sole mine uncancelled _⟩
  | cons c rest =>
    rw [if_neg (by simp), if_neg (by simp)]
    unfold store
    cases keyed : run.key with
    | none => exact ⟨events, quiet, endRun_sole mine uncancelled _⟩
    | some key =>
      refine ⟨events ++ [.stored 0 0 key], by rw [warnings_append, quiet]; rfl, ?_⟩
      dsimp only
      rw [seat.1, seat.2]
      exact endRun_sole mine uncancelled _

/-! A debounce that nobody disturbs. -/

/-- How far a debounce has come, with those who wait for the cancellation of its request. -/
inductive Debounce (run : Run) (now : Nat) : Loop Phase → List Nat → Prop where
  | begins (timers : List Timer) (rest : List Handle)
    (timed : timers.map (·.waiter) = [1] ∧ rest = [] ∨ timers = [] ∧ rest = [.release 1]) :
    Debounce run now
      { now
        futures := [{ activity := some { phase := .debouncing 2 (some run), waitingFor := some 1 } },
          { watchers := [.wake 0] },
          { watchers := [.release 1], activity := some { phase := .start (.watch 0) } }]
        ready := .wake 2 :: rest
        timers } []
  | watches (timers : List Timer) (ready : List Handle)
    (timed : timers.map (·.waiter) = [1] ∧ ready = [] ∨ timers = [] ∧ ready = [.release 1]) :
    Debounce run now
      { now
        futures := [{ activity := some { phase := .debouncing 2 (some run), waitingFor := some 1 } },
          { watchers := [.wake 0] },
          { watchers := [.release 1], activity := some { phase := .watching, waitingFor := some 3 } },
          { watchers := [.wake 2] }]
        ready
        timers } [3]
  | passed :
    Debounce run now
      { now
        futures := [{ activity := some { phase := .debouncing 2 (some run), waitingFor := some 1 } },
          { outcome := some (.value .nothing) },
          { watchers := [.release 1], activity := some { phase := .watching, waitingFor := some 3 } },
          { watchers := [.wake 2] }]
        ready := [.wake 0] } [3]
  | unwinds :
    Debounce run now
      { now
        futures := [{ activity := some { phase := .unwinding 2 true (some run), waitingFor := some 4 } },
          { outcome := some (.value .nothing) },
          { watchers := [.release 1, .release 4],
            activity := some { phase := .watching, waitingFor := some 3 } },
          { outcome := some .cancelled }, { watchers := [.wake 0] }]
        ready := [.wake 2] } [3]
  | unwound (rest : List Handle) (ready : rest = [.release 1, .release 4] ∨ rest = [.release 4]) :
    Debounce run now
      { now
        futures := [{ activity := some { phase := .unwinding 2 true (some run), waitingFor := some 4 } },
          { outcome := some (.value .nothing) },
          { outcome := some .cancelled, activity := some { phase := .watching } },
          { outcome := some .cancelled }, { watchers := [.wake 0] }]
        ready := rest } [3]

/-- The loop when the debounce is over. -/
def elapsed (run : Run) (now : Nat) : Loop Phase where
  now := now
  futures := [{ activity := some { phase := .unwinding 2 true (some run), waitingFor := some 4 } },
    { outcome := some (.value .nothing) },
    { outcome := some .cancelled, activity := some { phase := .watching } },
    { outcome := some .cancelled }, { outcome := some (.value .nothing) }]
  ready := [.wake 0]

theorem Debounce.turn {waiters : List Nat} (debounce : Debounce run now loop waiters) (client : Client)
    (o : Orchestrator) (events : List Event) : ∃ loop' waiters',
      (Debounce run now loop' waiters' ∨ loop' = elapsed run now) ∧
      (sole client loop [] { generation := 1, waiters } o events).apply env .turn =
        sole client loop' [] { generation := 1, waiters := waiters' } o events := by
  cases debounce with
  | begins timers rest timed => exact ⟨_, _, Or.inl (.watches timers rest timed), rfl⟩
  | watches timers ready timed =>
    rcases timed with ⟨timed, rfl⟩ | ⟨rfl, rfl⟩
    · exact ⟨_, _, Or.inl (.watches timers [] (Or.inl ⟨timed, rfl⟩)), rfl⟩
    · exact ⟨_, _, Or.inl .passed, rfl⟩
  | passed => exact ⟨_, _, Or.inl .unwinds, rfl⟩
  | unwinds => exact ⟨_, _, Or.inl (.unwound _ (Or.inl rfl)), rfl⟩
  | unwound rest ready =>
    rcases ready with rfl | rfl
    · exact ⟨_, _, Or.inl (.unwound _ (Or.inr rfl)), rfl⟩
    · exact ⟨_, [3], Or.inr rfl, rfl⟩

theorem Debounce.advance {waiters : List Nat} (debounce : Debounce run now loop waiters) (nanoseconds : Nat) :
    Debounce run (now + nanoseconds) (loop.advance nanoseconds) waiters := by
  cases debounce with
  | begins timers rest timed => exact .begins timers rest timed
  | watches timers ready timed => exact .watches timers ready timed
  | passed => exact .passed
  | unwinds => exact .unwinds
  | unwound rest ready => exact .unwound rest ready

/-- A debounce with a delay begins. -/
theorem conclude_startDebounce (env : Environment) (run : Run) (client : Client) (now : Nat) (phase : Phase)
    (o : Orchestrator) (events : List Event) {delay : Nat} (delayed : delay ≠ 0) :
    conclude 0 (deliver env (some run) ((sole client (Loop.running now phase []) [] { generation := 1 } o
      events).startDebounce 0 delay (some run))) =
      sole client
        { now
          futures := [{ activity := some { phase := .debouncing 2 (some run), waitingFor := some 1 } },
            { watchers := [.wake 0] },
            { watchers := [.release 1], activity := some { phase := .start (.watch 0) } }]
          ready := [.wake 2]
          timers := [⟨now + delay, 1⟩] } [] { generation := 1 } o events := by
  have fresh : (sole client (Loop.running now phase []) [] { generation := 1 } o events).isCancelled 0 =
      false := rfl
  unfold startDebounce
  rw [fresh, if_neg delayed]
  rfl

/-- A single timer fires or it does not. -/
theorem timed_of_fire {timers : List Timer} {ready : List Handle}
    (timed : timers.map (·.waiter) = [1] ∧ ready = [] ∨ timers = [] ∧ ready = [.release 1]) (now : Nat) :
    let due := timers.takeWhile fun timer => timer.deadline ≤ now
    let rest := timers.dropWhile fun timer => timer.deadline ≤ now
    rest.map (·.waiter) = [1] ∧ ready ++ due.map (fun timer => .release timer.waiter) = [] ∨
      rest = [] ∧ ready ++ due.map (fun timer => .release timer.waiter) = [.release 1] := by
  rcases timed with ⟨timed, rfl⟩ | ⟨rfl, rfl⟩
  · obtain ⟨timer, rfl, same⟩ := List.map_eq_singleton_iff.mp timed
    by_cases due : timer.deadline ≤ now
    · simp [due, same]
    · simp [due, same]
  · exact Or.inr ⟨rfl, rfl⟩

theorem Debounce.fireTimers {waiters : List Nat} (debounce : Debounce run now loop waiters) :
    Debounce run now loop.fireTimers waiters := by
  cases debounce with
  | begins timers rest timed => exact .begins _ _ (timed_of_fire timed now)
  | watches timers ready timed => exact .watches _ _ (timed_of_fire timed now)
  | passed => exact .passed
  | unwinds => exact .unwinds
  | unwound rest ready =>
    rcases ready with rfl | rfl
    · exact .unwound _ (Or.inl rfl)
    · exact .unwound _ (Or.inr rfl)

end Engine

end InlineCompletion
