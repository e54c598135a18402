import InlineCompletion.Client.Server
import InlineCompletion.Proofs.Engine.Solo

/-!
A completion with and without a stream. A request that is alone goes from its debounce to a call or to
the reading of a stream, one piece for two turns of the loop, and ends with what its report says of the
whole text. So a text comes to the same whether it is streamed in parts or given at once.
-/

namespace InlineCompletion

namespace Engine

variable {env : Environment} {settings : Settings} {cache : Cache Float} {document : Document}
  {position : Position} {run : Run} {now : Nat} {phase : Phase} {others : List (Future Phase)}
  {outcome : Outcome} {request : Request} {events : List Event}

/-! The course of the request. -/

/-- A client with one answer, which it gives in fragments. -/
abbrev speaker (fragments : List Text) : Client :=
  { replies := [⟨fragments, none⟩] }

/-- The client while its answer is read from a stream. -/
abbrev heard (fragments : List Text) : Client :=
  { speaker fragments with taken := 1, activeStreams := [0] }

/-- What a source does after a fragment, when these are left. -/
def remainder (fragments : List Text) : List SourceAction :=
  .passGate :: (Reply.actions ⟨fragments, none⟩).drop 2

/-- How far the request has come that began at some time, and when it has ended. -/
inductive Course (env : Environment) (settings : Settings) (cache : Cache Float) (fragments : List Text)
    (run : Run) (begun : Nat) : Option Nat → Engine → Prop where
  | debounces (now : Nat) (loop : Loop Phase) (waiters : List Nat) (events : List Event)
    (waits : ∀ ended, run.report env settings cache fragments.flatten begun ended =
      run.awaited env settings (run.found env cache begun).2 fragments.flatten ended)
    (debounce : Debounce run now loop waiters ∨ loop = elapsed run now) (quiet : warnings events = []) :
    Course env settings cache fragments run begun none
      (sole (speaker fragments) loop [] { generation := 1, waiters }
        (seated settings (run.found env cache begun).2 .debouncing) events)
  | calls (now : Nat) (others : List (Future Phase)) (waiters : List Nat) (call : Call) (events : List Event)
    (asks : run.Asks env settings cache fragments.flatten begun)
    (quiet : warnings events = []) :
    Course env settings cache fragments run begun none
      (sole ((speaker fragments).addCall (others.length + 1))
        (Loop.forked now (.calling (others.length + 1) (some run)) others (.answer call)) []
        { generation := 1, waiters, call := some (others.length + 1) }
        (seated settings (run.found env cache begun).2 .generating) events)
  | called (now : Nat) (others : List (Future Phase)) (request : Request) (call : Call) (events : List Event)
    (asks : run.Asks env settings cache fragments.flatten begun)
    (uncancelled : request.cancelled = false) (quiet : warnings events = []) :
    Course env settings cache fragments run begun none
      (sole { (speaker fragments).addCall (others.length + 1) with taken := 1 }
        (Loop.joined now (.calling (others.length + 1) (some run)) others (.answer call)
          (.value (.text fragments.flatten))) [] request
        (seated settings (run.found env cache begun).2 .generating) events)
  | opens (now : Nat) (others : List (Future Phase)) (request : Request) (call : Call) (events : List Event)
    (asks : run.Asks env settings cache fragments.flatten begun)
    (uncancelled : request.cancelled = false) (quiet : warnings events = []) :
    Course env settings cache fragments run begun none
      (sole { speaker fragments with activeStreams := [0] }
        (Loop.forked now (.reading 0 (.completion run [])) others (.pull 0))
        [{ source := { opening := some call }, pending := some (others.length + 1) }] request
        (seated settings (run.found env cache begun).2 .generating) events)
  | reads (now : Nat) (others : List (Future Phase)) (request : Request) (pieces rest : List Text)
    (events : List Event)
    (asks : run.Asks env settings cache fragments.flatten begun)
    (uncancelled : request.cancelled = false) (quiet : warnings events = [])
    (all : pieces ++ rest = fragments) :
    Course env settings cache fragments run begun none
      (sole (heard fragments) (Loop.forked now (.reading 0 (.completion run pieces)) others (.pull 0))
        [{ source := { actions := remainder rest }, pending := some (others.length + 1) }] request
        (seated settings (run.found env cache begun).2 .generating) events)
  | read (now : Nat) (others : List (Future Phase)) (request : Request) (pieces rest : List Text)
    (piece : Text) (events : List Event)
    (asks : run.Asks env settings cache fragments.flatten begun)
    (uncancelled : request.cancelled = false) (quiet : warnings events = [])
    (all : pieces ++ piece :: rest = fragments) :
    Course env settings cache fragments run begun none
      (sole (heard fragments)
        (Loop.joined now (.reading 0 (.completion run pieces)) others (.pull 0) (.value (.text piece)))
        [{ source := { actions := remainder rest }, pending := some (others.length + 1) }] request
        (seated settings (run.found env cache begun).2 .generating) events)
  | drained (now : Nat) (others : List (Future Phase)) (request : Request) (events : List Event)
    (asks : run.Asks env settings cache fragments.flatten begun)
    (uncancelled : request.cancelled = false) (quiet : warnings events = []) :
    Course env settings cache fragments run begun none
      (sole (heard fragments)
        (Loop.joined now (.reading 0 (.completion run fragments)) others (.pull 0) (.value .drained))
        [{ source := {}, pending := some (others.length + 1) }] request
        (seated settings (run.found env cache begun).2 .generating) events)
  | ended (now ended : Nat) (phase : Phase) (others : List (Future Phase)) (client : Client)
    (streams : List Stream) (request : Request) (events : List Event)
    (told : warnings events = (run.report env settings cache fragments.flatten begun ended).notices) :
    Course env settings cache fragments run begun (some ended)
      (sole client
        (Loop.over now phase others (run.report env settings cache fragments.flatten begun ended).outcome)
        streams request
        (vacated settings (run.report env settings cache fragments.flatten begun ended).cache) events)

variable {fragments : List Text} {begun : Nat} {streams' : List Stream}

/-- The first task waits for a new one. -/
theorem park_spawn (now : Nat) (phase next : Phase) (others : List (Future Phase)) (job : Job) :
    ((Loop.running now phase others).spawn (.start job)).2.park 0 next (others.length + 1) =
      Loop.forked now next others job := by
  have parked : ((Loop.running now phase others).spawn (.start job)).2.park 0 next (others.length + 1) =
      Loop.watch { Loop.forked now next others job with
          futures := { activity := some { phase := next, waitingFor := some (others.length + 1) } } ::
            (others ++ [{ activity := some { phase := .start job } }]) } (others.length + 1) (.wake 0) := rfl
  rw [parked]
  unfold Loop.watch Loop.isDone Loop.outcome? Loop.modifyFuture
  dsimp only
  rw [getElem?_last, modify_last]
  rfl

theorem conclude_over (tame : ∀ failure, outcome = .failed failure → failure.kind ≠ .interrupt)
    (client : Client) (streams : List Stream) (request : Request) (o : Orchestrator) (events : List Event) :
    conclude 0 (sole client (Loop.running now phase others) streams request o events, .done outcome) =
      sole client (Loop.over now phase others outcome) streams request o events := by
  rw [conclude_done tame]
  rfl

/-- The request is to begin. -/
def opened (client : Client) (settings : Settings) (cache : Cache Float) (document : Document)
    (position : Position) (now : Nat) : Engine where
  client := client
  loop :=
    { now
      futures := [{ activity := some { phase := .start (.complete 0 document position) } }]
      ready := [.wake 0] }
  orchestrators := [Orchestrator.ofCache settings cache]

section Course

variable (mine : run = soleRun env settings document position)

include mine

/-- The request has its reply. -/
theorem course_afterCall (client : Client) (streams : List Stream) (stage : Stage)
    (asks : run.Asks env settings cache fragments.flatten begun) (uncancelled : request.cancelled = false)
    (quiet : warnings events = []) : Course env settings cache fragments run begun (some now)
      (conclude 0 ((sole client (Loop.running now phase others) streams request
        (seated settings (run.found env cache begun).2 stage) events).afterCall env run
          (.value (.text fragments.flatten)))) := by
  obtain ⟨events', told, same⟩ := afterCall_sole mine uncancelled client
    (Loop.running now phase others) streams (run.found env cache begun).2 stage quiet fragments.flatten
  obtain ⟨v, value, silent⟩ := run.used_value env settings (run.found env cache begun).2
    fragments.flatten now
  have course : Course env settings cache fragments run begun (some now) _ :=
    .ended now now phase others client streams request events' (told.trans (asks now ▸ silent).symm)
  rw [asks now] at course
  rw [same, conclude_over fun failure failed => by cases value.symm.trans failed]
  exact course

/-- The debounce is over. -/
theorem course_afterDebounce (waiters : List Nat) (stage : Stage)
    (waits : ∀ ended, run.report env settings cache fragments.flatten begun ended =
      run.awaited env settings (run.found env cache begun).2 fragments.flatten ended)
    (quiet : warnings events = []) : ∃ stop, (stop = none ∨ stop = some now) ∧
      Course env settings cache fragments run begun stop
        (conclude 0 ((sole (speaker fragments) (Loop.running now phase others) [] { generation := 1, waiters }
          (seated settings (run.found env cache begun).2 stage) events).afterDebounce env run
            (.value (.truth true)))) := by
  have decides : (sole (speaker fragments) (Loop.running now phase others) [] { generation := 1, waiters }
      (seated settings (run.found env cache begun).2 stage) events).afterDebounce env run
        (.value (.truth true)) =
    if (Text.trim settings.model).isEmpty then
      (sole (speaker fragments) (Loop.running now phase others) [] { generation := 1, waiters }
        (seated settings (run.found env cache begun).2 stage) (events ++ [.notified .noModel])).endRun run
          (.value .nothing)
    else
      (sole (speaker fragments) (Loop.running now phase others) [] { generation := 1, waiters }
        (seated settings (run.found env cache begun).2 .generating) events).generate env run
          (callFor settings (Text.trim settings.model)
            (Prompt.ofPlace settings run.facts run.document run.position)) := by
    subst mine
    rfl
  rw [decides]
  unfold InlineCompletion.Run.awaited at waits
  by_cases none : (Text.trim settings.model).isEmpty = true
  · simp only [if_pos none] at waits ⊢
    refine ⟨some now, Or.inr rfl, ?_⟩
    rw [endRun_sole mine rfl, conclude_over fun failure failed => by cases failed]
    have course : Course env settings cache fragments run begun (some now) _ :=
      .ended now now phase others (speaker fragments) [] { generation := 1, waiters }
        (events ++ [.notified .noModel]) (by rw [warnings_append, quiet, waits now]; rfl)
    rw [waits now] at course
    exact course
  · simp only [if_neg none] at waits ⊢
    refine ⟨.none, Or.inl rfl, ?_⟩
    generalize callFor settings (Text.trim settings.model)
      (Prompt.ofPlace settings run.facts run.document run.position) = call
    have told : warnings (events ++ [.asked 0 now call]) = [] := by
      rw [warnings_append, quiet]
      rfl
    unfold generate
    dsimp only
    cases call.streamed with
    | false =>
      have course : Course env settings cache fragments run begun .none _ :=
        .calls now others waiters call _ waits told
      rw [← park_spawn now phase] at course
      subst mine
      exact course
    | true =>
      have course : Course env settings cache fragments run begun .none _ :=
        .opens now others { generation := 1, waiters, stream := some 0 } call _ waits rfl told
      rw [← park_spawn now phase] at course
      subst mine
      exact course

/-- The request begins. -/
theorem course_begins (cache : Cache Float) (fragments : List Text) (now : Nat) :
    ∃ stop, (stop = none ∨ stop = some now) ∧ Course env settings cache fragments run now stop
      ((opened (speaker fragments) settings cache document position now).apply env .turn) := by
  have begins : (opened (speaker fragments) settings cache document position now).apply env .turn =
      conclude 0 (({
          client := speaker fragments
          loop := Loop.running now (.start (.complete 0 document position)) []
          orchestrators := [Orchestrator.ofCache settings cache] } : Engine).startCompletion env 0 document
            position) := rfl
  obtain ⟨events, quiet, hits, misses⟩ := startCompletion_sole mine (speaker fragments)
    (Loop.running now (.start (.complete 0 document position)) []) cache
  rw [begins]
  -- Where the request ends at once, it does so with what its report says.
  have ends (after : Cache Float) (outcome : Outcome) (tame : ∀ failure, outcome = .failed failure →
      failure.kind ≠ .interrupt) (report : run.report env settings cache fragments.flatten now now =
        ⟨outcome, after, []⟩) : Course env settings cache fragments run now (some now)
      (conclude 0 (sole (speaker fragments) (Loop.running now (.start (.complete 0 document position)) []) []
        { generation := 1 } (vacated settings after) events, .done outcome)) := by
    have course : Course env settings cache fragments run now (some now) _ :=
      .ended now now (.start (.complete 0 document position)) [] (speaker fragments) []
        { generation := 1 } events (by rw [quiet, report])
    rw [report] at course
    rw [conclude_over tame]
    exact course
  rcases looked : run.found env cache now with ⟨_ | entry, after⟩
  · have report (ended : Nat) : run.report env settings cache fragments.flatten now ended = _ :=
      run.report_of_missed looked
    rw [misses after looked]
    unfold awaitDebounce
    have step : ((sole (speaker fragments) (Loop.running now (.start (.complete 0 document position)) []) []
        { generation := 1 } (seated settings after .idle) events).setStage run.orchestrator .debouncing) =
          sole (speaker fragments) (Loop.running now (.start (.complete 0 document position)) []) []
            { generation := 1 } (seated settings after .debouncing) events := by
      subst mine
      rfl
    rw [step]
    by_cases overflows : settings.debounceOverflows = true
    · simp only [if_pos overflows] at report ⊢
      rw [endRun_sole mine rfl]
      exact ⟨_, Or.inr rfl, ends after _ (by rintro failure failed; cases failed; decide) (report now)⟩
    · simp only [if_neg overflows] at report ⊢
      have again : after = (run.found env cache now).2 := by rw [looked]
      rw [again] at report ⊢
      have number : run.request = 0 := mine ▸ rfl
      rw [number]
      by_cases undelayed : settings.debounceMs.toNat * nanosecondsPerMillisecond = 0
      · rw [undelayed]
        exact course_afterDebounce mine [] .debouncing report quiet
      · rw [conclude_startDebounce env run (speaker fragments) now (.start (.complete 0 document position))
          (seated settings (run.found env cache now).2 .debouncing) events undelayed]
        refine ⟨none, Or.inl rfl, .debounces now _ [] events report (Or.inl ?_) quiet⟩
        exact .begins _ [] (Or.inl ⟨rfl, rfl⟩)
  · have report : run.report env settings cache fragments.flatten now now = _ := run.report_of_found looked
    rw [hits entry after looked]
    exact ⟨_, Or.inr rfl, ends after _ (by rintro failure failed; cases failed) report⟩

/-- A turn of the loop takes the request further. -/
theorem Course.turn {engine : Engine} (course : Course env settings cache fragments run begun none engine) :
    ∃ stop, (stop = none ∨ stop = some engine.loop.now) ∧
      Course env settings cache fragments run begun stop (engine.apply env .turn) := by
  cases course with
  | debounces now loop waiters events waits debounce quiet =>
    rcases debounce with debounce | rfl
    · obtain ⟨loop', waiters', debounce', same⟩ := debounce.turn (speaker fragments)
        (seated settings (run.found env cache begun).2 .debouncing) events
      rw [same]
      exact ⟨none, Or.inl rfl, .debounces now loop' waiters' events waits debounce' quiet⟩
    · exact course_afterDebounce mine waiters .debouncing waits quiet
  | calls now others waiters call events asks quiet =>
    refine ⟨none, Or.inl rfl, ?_⟩
    have told : warnings (events ++ [.recorded call]) = [] := by
      rw [warnings_append, quiet]
      rfl
    have course : Course env settings cache fragments run begun none _ :=
      .called now others { generation := 1, waiters, call := some (others.length + 1) } call _ asks rfl told
    refine turn_forked (sole ((speaker fragments).addCall (others.length + 1)) {} []
      { generation := 1, waiters, call := some (others.length + 1) } _ events) (sole _ {} [] _ _ _) rfl now
      (.calling (others.length + 1) (some run)) others (.answer call) (.value (.text fragments.flatten))
      (fun failure failed => by cases failed) ?_ ▸ course
    rfl
  | called now others request call events asks uncancelled quiet =>
    refine ⟨some now, Or.inr rfl, ?_⟩
    refine turn_joined env (sole { (speaker fragments).addCall (others.length + 1) with taken := 1 } {} []
      request (seated settings (run.found env cache begun).2 .generating) events) rfl now
      (.calling (others.length + 1) (some run)) others (.answer call)
      (.value (.text fragments.flatten)) ▸ ?_
    exact course_afterCall mine _ [] .generating asks uncancelled quiet
  | opens now others request call events asks uncancelled quiet =>
    refine ⟨none, Or.inl rfl, ?_⟩
    have told : warnings (events ++ [.recorded call]) = [] := by
      rw [warnings_append, quiet]
      rfl
    cases fragments with
    | nil =>
      have course : Course env settings cache [] run begun none _ :=
        .drained now others request (events ++ [.recorded call]) asks uncancelled told
      refine turn_forked (sole { speaker [] with activeStreams := [0] } {}
        [{ source := { opening := some call }, pending := some (others.length + 1) }] request _ events)
        (sole (heard []) {} _ request _ _) rfl now (.reading 0 (.completion run [])) others
          (.pull 0) (.value .drained)
        (fun failure failed => by cases failed) ?_ ▸ course
      rfl
    | cons piece rest =>
      have course : Course env settings cache (piece :: rest) run begun none _ :=
        .read now others request [] rest piece (events ++ [.recorded call]) asks uncancelled told rfl
      refine turn_forked (sole { speaker (piece :: rest) with activeStreams := [0] } {}
        [{ source := { opening := some call }, pending := some (others.length + 1) }] request _ events)
        (sole (heard (piece :: rest)) {} _ request _ _) rfl now (.reading 0 (.completion run [])) others
          (.pull 0)
        (.value (.text piece)) (fun failure failed => by cases failed) ?_ ▸ course
      rfl
  | reads now others request pieces rest events asks uncancelled quiet all =>
    refine ⟨none, Or.inl rfl, ?_⟩
    cases rest with
    | nil =>
      rw [List.append_nil] at all
      subst all
      have course : Course env settings cache pieces run begun none _ :=
        .drained now others request events asks uncancelled quiet
      refine turn_forked (sole (heard pieces) {}
        [{ source := { actions := remainder [] }, pending := some (others.length + 1) }] request _ events)
        (sole (heard pieces) {} _ request _ _) rfl now (.reading 0 (.completion run pieces)) others (.pull 0)
        (.value .drained) (fun failure failed => by cases failed) ?_ ▸ course
      rfl
    | cons piece rest =>
      have course : Course env settings cache fragments run begun none _ :=
        .read now others request pieces rest piece events asks uncancelled quiet all
      refine turn_forked (sole (heard fragments) {}
        [{ source := { actions := remainder (piece :: rest) }, pending := some (others.length + 1) }]
          request _ events)
        (sole (heard fragments) {} _ request _ _) rfl now (.reading 0 (.completion run pieces)) others
          (.pull 0)
        (.value (.text piece)) (fun failure failed => by cases failed) ?_ ▸ course
      rfl
  | read now others request pieces rest piece events asks uncancelled quiet all =>
    refine ⟨none, Or.inl rfl, ?_⟩
    have course : Course env settings cache fragments run begun none _ :=
      .reads now (others ++ [.settled (.pull 0) (.value (.text piece))]) request (pieces ++ [piece]) rest
        events asks uncancelled quiet (by rw [← all, List.append_assoc]; rfl)
    rw [← park_spawn now (.reading 0 (.completion run pieces))] at course
    refine turn_joined env (sole (heard fragments) {} _ request
      (seated settings (run.found env cache begun).2 .generating) events) rfl now
      (.reading 0 (.completion run pieces)) others (.pull 0) (.value (.text piece)) ▸ ?_
    exact course
  | drained now others request events asks uncancelled quiet =>
    refine ⟨some now, Or.inr rfl, ?_⟩
    refine turn_joined env (sole (heard fragments) {} _ request
      (seated settings (run.found env cache begun).2 .generating) events) rfl now
      (.reading 0 (.completion run fragments)) others (.pull 0) (.value .drained) ▸ ?_
    exact course_afterCall mine _ _ .generating asks uncancelled quiet

omit mine in
/-- Nothing changes while the loop looks at its timers or time passes, but for a debounce that is due. -/
theorem Course.waits {stop : Option Nat} {engine : Engine}
    (course : Course env settings cache fragments run begun stop engine) {move : Move}
    (waits : move = .fireTimers ∨ ∃ nanoseconds, move = .pass nanoseconds) :
    Course env settings cache fragments run begun stop (engine.apply env move) := by
  cases course with
  | debounces now loop waiters events report debounce quiet =>
    rcases waits with rfl | ⟨nanoseconds, rfl⟩
    · refine .debounces now loop.fireTimers waiters events report ?_ quiet
      exact debounce.imp Debounce.fireTimers fun same => by rw [same]; rfl
    · refine .debounces (now + nanoseconds) (loop.advance nanoseconds) waiters events report ?_ quiet
      exact debounce.imp (fun debounce => debounce.advance nanoseconds) fun same => by rw [same]; rfl
  | calls now others waiters call events asks quiet =>
    rcases waits with rfl | ⟨_, rfl⟩ <;> exact .calls _ others waiters call events asks quiet
  | called now others request call events asks uncancelled quiet =>
    rcases waits with rfl | ⟨_, rfl⟩ <;> exact .called _ others request call events asks uncancelled quiet
  | opens now others request call events asks uncancelled quiet =>
    rcases waits with rfl | ⟨_, rfl⟩ <;> exact .opens _ others request call events asks uncancelled quiet
  | reads now others request pieces rest events asks uncancelled quiet all =>
    rcases waits with rfl | ⟨_, rfl⟩ <;>
      exact .reads _ others request pieces rest events asks uncancelled quiet all
  | read now others request pieces rest piece events asks uncancelled quiet all =>
    rcases waits with rfl | ⟨_, rfl⟩ <;>
      exact .read _ others request pieces rest piece events asks uncancelled quiet all
  | drained now others request events asks uncancelled quiet =>
    rcases waits with rfl | ⟨_, rfl⟩ <;> exact .drained _ others request events asks uncancelled quiet
  | ended now ended phase others client streams request events told =>
    rcases waits with rfl | ⟨_, rfl⟩ <;>
      exact .ended _ ended phase others client streams request events told

omit mine in
theorem Course.stays {ended : Nat} {engine : Engine}
    (course : Course env settings cache fragments run begun (some ended) engine) :
    engine.apply env .turn = engine := by
  cases course with
  | ended => rfl

/-- The time when the first task ends. -/
def endsAt (env : Environment) (engine : Engine) : List Move → Nat
  | [] => engine.loop.now
  | move :: rest =>
    if (engine.apply env move).loop.isDone 0 then engine.loop.now else endsAt env (engine.apply env move) rest

omit mine in
theorem Course.isDone {stop : Option Nat} {engine : Engine}
    (course : Course env settings cache fragments run begun stop engine) :
    engine.loop.isDone 0 = stop.isSome := by
  cases course with
  | debounces now loop waiters events report debounce quiet =>
    rcases debounce with debounce | rfl
    · cases debounce <;> rfl
    · rfl
  | calls | called | opens | reads | read | drained | ended => rfl

omit mine in
/-- The gate is open, and nobody waits there. -/
theorem Course.openGate {engine : Engine}
    (course : Course env settings cache fragments run begun none engine) :
    engine.apply env .openGate = engine := by
  cases course <;> rfl

/-- A move of the loop or of time takes the request further, until it has ended. -/
theorem Course.apply {stop : Option Nat} {engine : Engine}
    (course : Course env settings cache fragments run begun stop engine) {move : Move}
    (idle : move.idle = true) :
    ∃ next, (next = stop ∨ stop = none ∧ next = some engine.loop.now) ∧
      Course env settings cache fragments run begun next (engine.apply env move) := by
  cases move with
  | turn =>
    cases stop with
    | none =>
      obtain ⟨next, same, course⟩ := course.turn mine
      exact ⟨next, same.imp_right fun same => ⟨rfl, same⟩, course⟩
    | some ended => exact ⟨some ended, Or.inl rfl, course.stays.symm ▸ course⟩
  | fireTimers => exact ⟨stop, Or.inl rfl, course.waits (Or.inl rfl)⟩
  | pass nanoseconds => exact ⟨stop, Or.inl rfl, course.waits (Or.inr ⟨nanoseconds, rfl⟩)⟩
  | _ => cases idle

omit mine in
/-- The request ends with the move after which it has ended. -/
theorem Course.endsAt_cons {next : Option Nat} {engine : Engine} {move : Move}
    (course : Course env settings cache fragments run begun next (engine.apply env move)) (rest : List Move) :
    endsAt env engine (move :: rest) =
      if next.isSome then engine.loop.now else endsAt env (engine.apply env move) rest := by
  rw [endsAt, course.isDone]

/-- While nobody does anything the request is under way, or it has ended. -/
theorem Course.play {stop : Option Nat} {engine : Engine}
    (course : Course env settings cache fragments run begun stop engine) {moves : List Move}
    (idle : ∀ move ∈ moves, move.idle = true) :
    ∃ last, (last = stop ∨ stop = none ∧ last = some (endsAt env engine moves)) ∧
      Course env settings cache fragments run begun last (engine.play env moves) := by
  induction moves generalizing engine stop with
  | nil => exact ⟨stop, Or.inl rfl, course⟩
  | cons move rest ih =>
    obtain ⟨next, same, course'⟩ := course.apply mine (idle move (List.mem_cons_self ..))
    obtain ⟨last, ends, course''⟩ := ih course' fun move member => idle move (List.mem_cons_of_mem _ member)
    refine ⟨last, ?_, course''⟩
    rw [course'.endsAt_cons]
    rcases same with rfl | ⟨rfl, rfl⟩
    · refine ends.imp_right fun ⟨unended, same⟩ => ⟨unended, same.trans ?_⟩
      rw [unended]
      rfl
    · refine Or.inr ⟨rfl, ?_⟩
      rcases ends with same | ⟨unended, -⟩
      · exact same
      · cases unended

/-- The request is yet to begin, or it is under way, or it has ended. -/
theorem course_play (cache : Cache Float) (fragments : List Text) (now : Nat) {moves : List Move}
    (idle : ∀ move ∈ moves, move.idle = true) :
    let engine := opened (speaker fragments) settings cache document position now
    (∃ later, engine.play env moves = opened (speaker fragments) settings cache document position later) ∨
    ∃ last, (last = none ∨ last = some (endsAt env engine moves)) ∧
      Course env settings cache fragments run (now + Move.lead moves) last (engine.play env moves) := by
  induction moves generalizing now with
  | nil => exact Or.inl ⟨now, rfl⟩
  | cons move rest ih =>
    have later : ∀ move ∈ rest, move.idle = true := fun move member =>
      idle move (List.mem_cons_of_mem _ member)
    have here := idle move (List.mem_cons_self ..)
    cases move with
    | turn =>
      obtain ⟨next, same, course⟩ := course_begins mine cache fragments now
      obtain ⟨last, ends, course'⟩ := course.play mine later
      refine Or.inr ⟨last, ?_, course'⟩
      rw [course.endsAt_cons]
      rcases same with rfl | rfl
      · exact ends.imp_right And.right
      · refine Or.inr ?_
        rcases ends with same | ⟨unended, -⟩
        · exact same
        · cases unended
    | fireTimers => exact ih now later
    | pass nanoseconds =>
      rw [show Move.lead (.pass nanoseconds :: rest) = nanoseconds + Move.lead rest from rfl, ← Nat.add_assoc]
      exact ih (now + nanoseconds) later
    | _ => cases here

end Course

/-- The engine shows what a report says. -/
structure Shows (engine : Engine) (report : Report) : Prop where
  outcome : engine.loop.outcome? 0 = some report.outcome
  caches : engine.orchestrators.map (·.cache) = [report.cache]
  notices : engine.notices = report.notices

theorem Course.shows {ended : Nat} {engine : Engine}
    (course : Course env settings cache fragments run begun (some ended) engine) :
    engine.Shows (run.report env settings cache fragments.flatten begun ended) := by
  cases course with
  | ended now ended phase others client streams request events told => exact ⟨rfl, rfl, told⟩

/-- A request that is alone comes to what its report says, whatever way its reply takes. -/
theorem shows_report (env : Environment) (settings : Settings) (cache : Cache Float) (fragments : List Text)
    (document : Document) (position : Position) {moves : List Move}
    (idle : ∀ move ∈ moves, move.idle = true) :
    let begins := reached env (speaker fragments) [(settings, cache)] [.request 0 document position]
    (begins.play env moves).loop.isDone 0 = true →
      (begins.play env moves).Shows ((soleRun env settings document position).report env settings cache
        fragments.flatten (Move.lead moves) (endsAt env begins moves)) := by
  intro begins done
  have mine : soleRun env settings document position = soleRun env settings document position := rfl
  have same : begins = opened (speaker fragments) settings cache document position 0 := rfl
  rw [same] at done ⊢
  rcases course_play mine cache fragments 0 idle with ⟨later, same⟩ | ⟨last, ends, course⟩
  · rw [same] at done
    cases done
  · rw [course.isDone] at done
    rcases ends with rfl | rfl
    · cases done
    · rw [Nat.zero_add] at course
      exact course.shows

/-- A request that is alone ends. -/
theorem ends_alone (env : Environment) (settings : Settings) (cache : Cache Float) (fragments : List Text)
    (document : Document) (position : Position) {moves : List Move}
    (idle : ∀ move ∈ moves, move.idle = true) :
    ∃ more : List Move, (∀ move ∈ more, move.idle = true) ∧
      ((reached env (speaker fragments) [(settings, cache)] [.request 0 document position]).play env
        (moves ++ more)).loop.isDone 0 = true := by
  generalize made : (reached env (speaker fragments) [(settings, cache)]
    [.request 0 document position]).play env moves = engine
  have all : engine = reached env (speaker fragments) [(settings, cache)]
    (.request 0 document position :: moves) := made.symm
  have tame : (speaker fragments).Tame := by
    refine ⟨(fun _ same => by cases same), fun reply member failure raised => ?_⟩
    cases List.mem_singleton.mp member
    cases raised
  have harmless : ∀ move ∈ [] ++ .request 0 document position :: moves, move.Tame := by
    intro move member
    rcases List.mem_cons.mp member with rfl | member
    · trivial
    · have here := idle move member
      cases move <;> trivial
  have untouched : .cancelTask 0 ∉ [] ++ .request 0 document position :: moves := by
    intro member
    rcases List.mem_cons.mp member with same | member
    · cases same
    · cases idle _ member
  have attends := attends_reached env tame [(settings, cache)] [] moves 0 document position harmless untouched
  by_cases done : engine.loop.isDone 0 = true
  · exact ⟨[], fun _ member => absurd member List.not_mem_nil, by rw [List.append_nil, made]; exact done⟩
  -- The gate is open, so that it is opened to no avail.
  have opens : engine.apply env .openGate = engine := by
    have mine : soleRun env settings document position = soleRun env settings document position := rfl
    rcases course_play mine cache fragments 0 idle with ⟨later, same⟩ | ⟨last, ends, course⟩
    · rw [show engine = _ from made.symm.trans same]
      rfl
    · have course : Course env settings cache fragments _ _ last engine := made ▸ course
      cases last with
      | none => exact course.openGate
      | some ended => exact absurd course.isDone done
  have ends {activity : Activity Phase} (known : engine.loop.Unfinished 0 activity)
      (completes : activity.phase.isCompletion = true) :
      ∃ first wait last, (engine.play env (patience first wait last)).loop.isDone 0 = true := by
    refine Tame.completes env ?_ ?_ ?_ ?_ known completes
    all_goals rw [all]
    · exact coherent_reached ..
    · exact manned_play ..
    · exact tame_play env tame _ harmless
    · exact alarmed_play env _ _ _
  have finishes (ends : ∃ first wait last,
      (engine.play env (patience first wait last)).loop.isDone 0 = true) :
      ∃ more : List Move, (∀ move ∈ more, move.idle = true) ∧
        ((reached env (speaker fragments) [(settings, cache)] [.request 0 document position]).play env
          (moves ++ more)).loop.isDone 0 = true := by
    obtain ⟨first, wait, last, ended⟩ := ends
    refine ⟨(patience first wait last).tail, fun move member => ?_, ?_⟩
    · simp only [patience, List.tail_cons, List.mem_append, List.mem_replicate, List.mem_cons] at member
      rcases member with ⟨-, rfl⟩ | rfl | rfl | ⟨-, rfl⟩ <;> rfl
    · rw [play_append, made]
      have ended : ((engine.apply env .openGate).play env (patience first wait last).tail).loop.isDone 0 =
        true := ended
      rwa [opens] at ended
  rw [List.nil_append, ← all] at attends
  cases attends with
  | begins activity known starts => exact finishes (ends known (by simp [Phase.isCompletion, starts]))
  | works run works mine =>
    obtain ⟨activity, known, works⟩ := runOf_eq_some_iff.mp works
    exact finishes (ends known (by simp [Phase.isCompletion, works]))
  | ended outcome ended proper =>
    exact absurd ((Loop.isDone_iff _ 0).mpr (by rw [show engine.loop.outcome? 0 = _ from ended]; simp)) done

end Engine

/-! What the client of a server says. -/

namespace Adapter

variable {backend : Backend} {parts : List Data} {fragments : List Text}

theorem contents_of_cut (cut : parts.map contentOf = fragments.map fun fragment => .ok (.text fragment)) :
    contents parts = ((fragments.filter (· ≠ [])).map .text, none) := by
  induction parts generalizing fragments with
  | nil =>
    cases fragments with
    | nil => rfl
    | cons fragment rest => cases cut
  | cons part parts ih =>
    cases fragments with
    | nil => cases cut
    | cons fragment rest =>
      obtain ⟨first, more⟩ := List.cons.inj cut
      unfold contents
      rw [first, ih more]
      cases fragment with
      | nil => rfl
      | cons c text => rfl

theorem fragmentsOf_texts (index : Nat) (fragments : List Text) :
    fragmentsOf index (fragments.map .text) = ⟨fragments, none⟩ := by
  induction fragments generalizing index with
  | nil => rfl
  | cons fragment rest ih =>
    rw [List.map_cons, fragmentsOf, ih]

/-- Of a stream the fragments are passed on that are not empty. -/
theorem streamReply_of_cut (streams : backend.answer = .ok (.list parts))
    (cut : parts.map contentOf = fragments.map fun fragment => .ok (.text fragment)) :
    streamReply backend = ⟨fragments.filter (· ≠ []), none⟩ := by
  unfold streamReply streamed
  rw [streams]
  dsimp only
  rw [contents_of_cut cut]
  dsimp only
  rw [fragmentsOf_texts]
  rfl

end Adapter

namespace Engine

/-- Streamed or at once, a completion comes to the same. -/
theorem modes_agree (env : Environment) (adapter : Adapter) {streaming answering : Backend}
    {parts : List Data} {fragments : List Text} {response : Response}
    (streams : streaming.answer = .ok (.list parts))
    (cut : parts.map Adapter.contentOf = fragments.map fun fragment => .ok (.text fragment))
    (answers : answering.answer.bind (Adapter.respond adapter.model) = .ok response)
    (whole : response.content = fragments.flatten) (settings : Settings) (cache : Cache Float)
    (document : Document) (position : Position) :
    let streamed := reached env (adapter.client streaming true) [({ settings with stream := true }, cache)]
      [.request 0 document position]
    let single := reached env (adapter.client answering false) [({ settings with stream := false }, cache)]
      [.request 0 document position]
    (∀ moves : List Move, (∀ move ∈ moves, move.idle = true) →
      (∃ more : List Move, (∀ move ∈ more, move.idle = true) ∧
        (streamed.play env (moves ++ more)).loop.isDone 0 = true) ∧
      ∃ more : List Move, (∀ move ∈ more, move.idle = true) ∧
        (single.play env (moves ++ more)).loop.isDone 0 = true) ∧
    ∀ moves moves' : List Move, (∀ move ∈ moves, move.idle = true) → (∀ move ∈ moves', move.idle = true) →
      (streamed.play env moves).loop.isDone 0 = true → (single.play env moves').loop.isDone 0 = true →
      env.clock (Move.lead moves) = env.clock (Move.lead moves') →
      (streamed.play env moves).loop.outcome? 0 = (single.play env moves').loop.outcome? 0 ∧
      (streamed.play env moves).notices = (single.play env moves').notices ∧
      (env.clock (endsAt env streamed moves) = env.clock (endsAt env single moves') →
        (streamed.play env moves).orchestrators.map (·.cache) =
          (single.play env moves').orchestrators.map (·.cache)) := by
  intro streamed single
  have streams : adapter.client streaming true = speaker (fragments.filter (· ≠ [])) := by
    unfold Adapter.client
    rw [if_pos rfl, Adapter.streamReply_of_cut streams cut]
  have answers : adapter.client answering false = speaker [response.content] := by
    unfold Adapter.client Adapter.singleReply
    rw [if_neg (by decide), answers]
  have same : (fragments.filter (· ≠ [])).flatten = [response.content].flatten := by
    rw [List.flatten_filter_ne_nil, List.flatten_singleton, whole]
  refine ⟨fun moves idle => ⟨?_, ?_⟩, fun moves moves' idle idle' done done' begins => ?_⟩
  · rw [show streamed = _ from congrArg (fun client => reached env client _ _) streams]
    exact ends_alone env _ cache _ document position idle
  · rw [show single = _ from congrArg (fun client => reached env client _ _) answers]
    exact ends_alone env _ cache _ document position idle
  · have shows : (streamed.play env moves).Shows ((soleRun env { settings with stream := true } document
        position).report env { settings with stream := true } cache (fragments.filter (· ≠ [])).flatten
          (Move.lead moves) (endsAt env streamed moves)) := by
      rw [show streamed = _ from congrArg (fun client => reached env client _ _) streams] at done ⊢
      exact shows_report env _ cache _ document position idle done
    have shows' : (single.play env moves').Shows ((soleRun env { settings with stream := false } document
        position).report env { settings with stream := false } cache [response.content].flatten
          (Move.lead moves') (endsAt env single moves')) := by
      rw [show single = _ from congrArg (fun client => reached env client _ _) answers] at done' ⊢
      exact shows_report env _ cache _ document position idle' done'
    -- Whether it is streamed does not matter to a report.
    have agree : (soleRun env { settings with stream := true } document position).report env
        { settings with stream := true } cache [response.content].flatten (Move.lead moves)
          (endsAt env streamed moves) =
        (soleRun env { settings with stream := false } document position).report env
          { settings with stream := false } cache [response.content].flatten (Move.lead moves)
            (endsAt env streamed moves) := rfl
    rw [same, agree] at shows
    obtain ⟨outcome, notices, caches⟩ : _ ∧ _ ∧ _ := Run.report_congr begins
    refine ⟨?_, ?_, fun ends => ?_⟩
    · rw [shows.outcome, shows'.outcome, outcome]
    · rw [shows.notices, shows'.notices, notices]
    · rw [shows.caches, shows'.caches, caches ends]

/-- What a server says with this content, at once or as a part of a stream. -/
def partOf (content : Text) : Data :=
  .record [("message", .record [("content", .text content)])]

/-- A server that gives a text in three parts, of which one is empty. -/
def cutBackend : Backend := { reply := .list [partOf ['a'], partOf [], partOf ['b']] }

/-- A server that gives the same text at once. -/
def wholeBackend : Backend := { reply := partOf ['a', 'b'] }

/-- The parts take more turns, and come to the same. -/
theorem modes_agree_cut :
    let adapter : Adapter := {}
    let streamed := (reached frozen (adapter.client cutBackend true)
      [({ whole with stream := true }, ⟨1, 300, []⟩)] [.request 0 scriptPage ⟨0, 0⟩]).play frozen
        (List.replicate 7 .turn)
    let single := (reached frozen (adapter.client wholeBackend false)
      [({ whole with stream := false }, ⟨1, 300, []⟩)] [.request 0 scriptPage ⟨0, 0⟩]).play frozen
        (List.replicate 3 .turn)
    single.loop.outcome? 0 = some (.value (.text ['a', 'b'])) ∧
      streamed.loop.outcome? 0 = single.loop.outcome? 0 ∧ streamed.notices = single.notices ∧
      streamed.orchestrators.map (·.cache) = single.orchestrators.map (·.cache) := by
  intro adapter streamed single
  have streams : cutBackend.answer = .ok (.list [partOf ['a'], partOf [], partOf ['b']]) := rfl
  have cut : [partOf ['a'], partOf [], partOf ['b']].map Adapter.contentOf =
      [['a'], [], ['b']].map fun fragment => .ok (.text fragment) := rfl
  have answers : wholeBackend.answer.bind (Adapter.respond adapter.model) =
      .ok ⟨['a', 'b'], 0, 0, [], "ollama"⟩ := rfl
  obtain ⟨-, agree⟩ := modes_agree frozen adapter streams cut answers rfl whole ⟨1, 300, []⟩ scriptPage
    ⟨0, 0⟩
  obtain ⟨outcome, notices, caches⟩ := agree (List.replicate 7 .turn) (List.replicate 3 .turn) (by decide)
    (by decide) (by decide +kernel) (by decide +kernel) rfl
  exact ⟨by decide +kernel, outcome, notices, caches rfl⟩

end Engine

end InlineCompletion
