import InlineCompletion.Engine.Run
import InlineCompletion.Proofs.Engine.Alarms
import InlineCompletion.Proofs.Engine.Fares

/-!
What happens in the turns of a completion. Until it asks nobody hears of it, and it stores its text or
tells the user something only in the turn in which it ends.
-/

namespace InlineCompletion

/-- Of no consequence to the user, the client or a cache. -/
def Event.Quiet : Event → Prop
  | .recorded _ | .consulted .. | .stoppedCall _ | .stoppedStream _ => True
  | .asked .. | .stored .. | .notified _ => False

/-- What the user was told, in order. -/
def warnings (events : List Event) : List Notice :=
  events.filterMap fun
    | .notified notice => some notice
    | _ => none

theorem warnings_append (events told : List Event) :
    warnings (events ++ told) = warnings events ++ warnings told :=
  List.filterMap_append ..

theorem warnings_eq_nil {events : List Event} (none : ∀ notice, .notified notice ∉ events) :
    warnings events = [] := by
  refine List.filterMap_eq_nil_iff.mpr fun event member => ?_
  cases event with
  | notified notice => exact absurd member (none notice)
  | recorded | asked | consulted | stored | stoppedCall | stoppedStream => rfl

theorem warnings_of_quiet {events : List Event} (quiet : ∀ event ∈ events, event.Quiet) :
    warnings events = [] :=
  warnings_eq_nil fun _ member => quiet _ member

theorem storings_of_quiet {events : List Event} (quiet : ∀ event ∈ events, event.Quiet) :
    storings events = [] :=
  storings_eq_nil fun _ _ _ member => quiet _ member

/-- Whoever has asked works for a request. -/
theorem Phase.works_of_asked {phase : Phase} (asked : phase.asked = true) : ∃ run, phase.run? = some run := by
  unfold Phase.asked at asked
  split at asked
  · exact ⟨_, rfl⟩
  · exact ⟨_, rfl⟩
  · exact ⟨_, rfl⟩
  · cases asked

namespace Engine

variable {engine old new : Engine} {env : Environment} {run : Run} {touched : Nat → Prop} {task : Nat}
  {activity : Activity Phase} {phase : Phase} {outcome : Outcome} {step : Step}

/-- The one thing of consequence that a completion does in a turn, with how its task goes on. -/
inductive Heard (run : Run) : Verdict → List Event → Prop where
  | waits (target : Nat) (phase : Phase) (works : phase.run? = some run) : Heard run (.wait target phase) []
  | asks (target : Nat) (phase : Phase) (works : phase.run? = some run) (asked : phase.asked = true)
    (now : Nat)
    (call : Call) : Heard run (.wait target phase) [.asked run.request now call]
  | ends (outcome : Outcome) : Heard run (.done outcome) []
  | warns (notice : Notice) : Heard run (.done (.value .nothing)) [.notified notice]
  | stores (key completion : Text) (keyed : run.key = some key) :
    Heard run (.done (.value (run.insertion completion))) [.stored run.orchestrator run.request key]

/-- A turn of a completion, as others hear of it. -/
def Told (run : Run) (old : Engine) (step : Step) : Prop :=
  ∃ quiet main, step.1.events = old.events ++ quiet ++ main ∧ (∀ event ∈ quiet, event.Quiet) ∧
    Heard run step.2 main

theorem Told.of_events {main : List Event} (events : step.1.events = old.events ++ main)
    (heard : Heard run step.2 main) : Told run old step :=
  ⟨[], main, by rw [List.append_nil]; exact events, fun _ member => absurd member List.not_mem_nil, heard⟩

theorem Told.of_quiet {told : List Event} (events : new.events = old.events ++ told)
    (quiet : ∀ event ∈ told, event.Quiet) (rest : Told run new step) : Told run old step := by
  obtain ⟨quiet', main, events', all, heard⟩ := rest
  refine ⟨told ++ quiet', main, ?_, fun event member => ?_, heard⟩
  · rw [events', events, List.append_assoc old.events]
  · exact (List.mem_append.mp member).elim (quiet event) (all event)

theorem Told.of_silent (silent : Silent old new) (rest : Told run new step) : Told run old step := by
  have same := silent.silent_events
  exact .of_quiet (by rw [same, List.append_nil]) (fun _ member => absurd member List.not_mem_nil) rest

theorem Told.of_waits {target : Nat} (events : new.events = old.events) (works : phase.run? = some run) :
    Told run old (new, .wait target phase) :=
  .of_events (events.trans (List.append_nil _).symm) (.waits target phase works)

theorem told_endRun (engine : Engine) (run : Run) (outcome : Outcome) :
    Told run engine (engine.endRun run outcome) :=
  .of_events (by rw [events_endRun, List.append_nil]) (.ends outcome)

theorem told_notify (engine : Engine) (run : Run) (notice : Notice) :
    Told run engine ((engine.notify notice).endRun run (.value .nothing)) :=
  .of_events (events_endRun ..) (.warns notice)

theorem told_acceptReply (env : Environment) (engine : Engine) (run : Run) (raw : Text) :
    Told run engine (engine.acceptReply env run raw) := by
  unfold acceptReply
  split
  · exact told_endRun ..
  · dsimp only
    split
    · exact told_endRun ..
    · unfold store
      split
      · exact told_endRun ..
      · next key keyed =>
        refine .of_events ?_ (.stores key _ keyed)
        rw [events_endRun]
        rfl

theorem told_afterCall (env : Environment) (engine : Engine) (run : Run) (outcome : Outcome) :
    Told run engine (engine.afterCall env run outcome) := by
  cases outcome with
  | cancelled => exact told_endRun ..
  | failed failure =>
    unfold afterCall
    dsimp only
    split
    · exact told_endRun ..
    · split
      · exact told_endRun ..
      · exact told_notify ..
  | value v =>
    unfold afterCall
    dsimp only
    split
    · exact told_acceptReply ..
    · exact told_endRun ..

theorem Decides.told (decides : Decides env run old outcome step) : Told run old step := by
  cases decides with
  | asks o call new target phase passed live found selected silent outset =>
    exact .of_events silent.silent_events (.asks target phase outset.works outset.asked _ call)
  | unselected => exact told_notify ..
  | stops => exact told_endRun ..

theorem events_lookUp (env : Environment) (engine : Engine) (run : Run) (cache : Cache Float) :
    ∃ told, (engine.lookUp env run cache).2.events = engine.events ++ told ∧ ∀ event ∈ told, event.Quiet := by
  unfold lookUp
  split
  · exact ⟨[], (List.append_nil _).symm, fun _ member => absurd member List.not_mem_nil⟩
  · refine ⟨_, rfl, fun event member => ?_⟩
    cases List.mem_singleton.mp member
    trivial

theorem Enters.told {settings : Settings} {cache : Cache Float}
    (enters : Enters env run settings cache old step) : Told run old step := by
  obtain ⟨told, looked, quiet⟩ := events_lookUp env old run cache
  refine .of_quiet looked quiet ?_
  cases enters with
  | hit | overflows => exact told_endRun ..
  | waits missed fits delayed new waiter watch silent => exact .of_waits silent.silent_events rfl
  | decides missed fits undelayed step decides => exact decides.told

theorem Event.Stopping.quiet {event : Event} (stops : event.Stopping) : event.Quiet := by
  cases event <;> trivial

theorem Fares.told (fares : Fares env old phase outcome run step) : Told run old step := by
  cases fares with
  | enters o new begun found succeeds now enters =>
    obtain ⟨told, events, stops⟩ := succeeds.events
    exact .of_quiet events (fun event member => Event.Stopping.quiet (stops event member)) enters.told
  | weighs works unasked weighs =>
    generalize old.debounced? phase outcome = answer at weighs
    cases weighs with
    | waits new target watch timedOut silent => exact .of_waits silent.silent_events rfl
    | decides answer step decides => exact decides.told
  | receives works asked receives =>
    generalize old.read? phase outcome = read at receives
    generalize old.called? phase outcome = called at receives
    cases receives with
    | waits new target phase silent works => exact .of_waits silent.silent_events works
    | ended new outcome silent => exact .of_silent silent (told_afterCall ..)

/-! The turns of a task. -/

/-- The task that a move runs. -/
def awakens? (engine : Engine) : Move → Option Nat
  | .turn => engine.woken?
  | _ => none

/-- What happens in the turns of a task in the course of these moves. -/
def chronicle (env : Environment) (task : Nat) : Engine → List Move → List Event
  | _, [] => []
  | engine, move :: rest =>
    (if engine.awakens? move = some task then (engine.apply env move).events.drop engine.events.length
      else []) ++ chronicle env task (engine.apply env move) rest

theorem awakens?_eq_some_iff {move : Move} :
    engine.awakens? move = some task ↔ move = .turn ∧ engine.woken? = some task := by
  unfold awakens?
  split
  · simp
  · next other => exact ⟨(fun same => by cases same), fun both => (other both.1).elim⟩

theorem chronicle_append (env : Environment) (task : Nat) (engine : Engine) (moves more : List Move) :
    chronicle env task engine (moves ++ more) =
      chronicle env task engine moves ++ chronicle env task (engine.play env moves) more := by
  induction moves generalizing engine with
  | nil => rfl
  | cons move rest ih =>
    rw [List.cons_append, chronicle, chronicle, ih, List.append_assoc]
    rfl

/-- Nothing happens for a task that has ended. -/
theorem chronicle_of_ended (env : Environment) (coherent : engine.Coherent (fun _ => True) none)
    (ended : engine.loop.outcome? task = some outcome) (moves : List Move) :
    chronicle env task engine moves = [] := by
  induction moves generalizing engine with
  | nil => rfl
  | cons move rest ih =>
    have asleep : engine.awakens? move ≠ some task := by
      intro awakens
      obtain ⟨-, woken⟩ := awakens?_eq_some_iff.mp awakens
      obtain ⟨-, rest, first⟩ := woken?_eq_some_iff.mp woken
      obtain ⟨activity, known, -⟩ := Loop.Sound.wake coherent.sound first
      cases known.2.symm.trans ended
    rw [chronicle, if_neg asleep, List.nil_append]
    exact ih (coherent.apply env move fun _ _ => trivial)
      ((moved_apply env coherent move).ended coherent ended)

/-- While a completion has not ended, it tells and stores nothing, and it asks once and for all. -/
structure Hushed (events : List Event) (before after : Phase) : Prop where
  unwarned : warnings events = []
  unstored : storings events = []
  unasked : after.asked = false → ∀ request now call, .asked request now call ∉ events
  asked : before.asked = true → after.asked = true

theorem Hushed.refl (phase : Phase) : Hushed [] phase phase :=
  ⟨rfl, rfl, fun _ _ _ _ => List.not_mem_nil, id⟩

theorem Hushed.trans {events more : List Event} {before middle after : Phase}
    (first : Hushed events before middle)
    (second : Hushed more middle after) : Hushed (events ++ more) before after where
  unwarned := by rw [warnings_append, first.unwarned, second.unwarned, List.append_nil]
  unstored := by rw [storings_append, first.unstored, second.unstored, List.append_nil]
  unasked := by
    intro early request now call member
    rcases List.mem_append.mp member with member | member
    · refine first.unasked (Bool.eq_false_iff.mpr fun asked => ?_) request now call member
      rw [second.asked asked] at early
      cases early
    · exact second.unasked early request now call member
  asked asked := second.asked (first.asked asked)

/-- A task that was made for a completion serves it in each of its turns, unless that turn ends it. -/
theorem serves_or_ends (env : Environment) (coherent : engine.Coherent touched none)
    (woken : engine.woken? = some task) (known : engine.loop.Unfinished task activity)
    (completes : activity.phase.isCompletion = true) :
    (∃ run, engine.Serves env task run) ∨
      ∃ outcome, (engine.apply env .turn).loop.outcome? task = some outcome ∧
        (outcome = .cancelled ∧ engine.incoming activity = .cancelled ∨ outcome = .value .nothing) := by
  obtain ⟨rest, first, same⟩ := turn_of_woken env coherent woken known
  obtain ⟨runner, runs⟩ := runner_of_woken env coherent first known
  have resumed := resumed_resume env coherent first known
  rw [same]
  generalize made : Engine.resume _ env activity.phase (engine.incoming activity) = step at *
  cases resumed with
  | plays run works =>
    exact Or.inl ⟨run, .of_mine woken known (Or.inl works)⟩
  | begins orchestrator o run starts wanted found mine newest succeeds opened entered =>
    obtain ⟨document, position, phase, placed⟩ := entered
    refine Or.inl ⟨run, .of_mine woken known (Or.inr ?_)⟩
    simp only [enters?, phase, if_neg wanted]
    exact Option.map_eq_some_iff.mpr ⟨o, found, placed.symm⟩
  | absent orchestrator starts wanted nowhere same =>
    subst same
    exact Or.inr ⟨_, outcome?_conclude runs _, Or.inr rfl⟩
  | assists idle unstarted assists =>
    obtain ⟨orchestrator, starts⟩ : ∃ orchestrator, activity.phase.starts? = some orchestrator := by
      simpa [Phase.isCompletion, idle, Option.isSome_iff_exists] using completes
    have cancelled := unstarted (by rw [starts]; exact Option.some_ne_none _)
    refine Or.inr ⟨.cancelled, ?_, Or.inl ⟨rfl, cancelled⟩⟩
    have ends : step.2 = .done .cancelled := by
      rw [← made, cancelled]
      unfold Phase.starts? at starts
      split at starts
      · next phase => rw [phase]; rfl
      · cases starts
    obtain ⟨last, verdict⟩ := step
    subst ends
    exact outcome?_conclude runs _

/-- Who has not ended with its turn waits. -/
theorem waits_of_conclude {runner found : Activity Phase} (runs : step.1.loop.Unfinished task runner)
    (unfinished : (conclude task step).loop.Unfinished task found) :
    ∃ target, step.2 = .wait target found.phase := by
  obtain ⟨last, verdict⟩ := step
  cases verdict with
  | wait target phase =>
    obtain ⟨-, rfl⟩ := ((Loop.unfinished_park runs phase target task found).mp unfinished).resolve_right
      fun apart => apart.1 rfl
    exact ⟨target, rfl⟩
  | done result =>
    rw [loop_conclude_done] at unfinished
    exact absurd rfl ((Loop.unfinished_finish runs result task found).mp unfinished).1

/-- A turn after which the completion has not ended. -/
theorem hushed_turn (env : Environment) (coherent : engine.Coherent touched none)
    (woken : engine.woken? = some task) (known : engine.loop.Unfinished task activity)
    (completes : activity.phase.isCompletion = true) {found : Activity Phase}
    (unfinished : (engine.apply env .turn).loop.Unfinished task found) :
    found.phase.isCompletion = true ∧ Hushed
      ((engine.apply env .turn).events.drop engine.events.length) activity.phase found.phase := by
  rcases serves_or_ends env coherent woken known completes with ⟨run, serves⟩ | ⟨outcome, ended, -⟩
  · have asked (asked : activity.phase.asked = true) : found.phase.asked = true := by
      obtain ⟨rest, target, -, -, waits, -⟩ := wait_of_woken env coherent woken known unfinished
      obtain ⟨run, works⟩ := Phase.works_of_asked asked
      exact (pursues_resume env works asked _ _).asked target found.phase waits
    obtain ⟨activity', rest, step, known', first, same, ⟨runner, runs⟩, fares⟩ :=
      fares_turn env coherent serves
    obtain ⟨quiet, main, events, all, heard⟩ := fares.told
    have told : (engine.apply env .turn).events.drop engine.events.length = quiet ++ main := by
      rw [same, (conclude_frame task step).2.2, events, List.append_assoc]
      exact List.drop_left
    obtain ⟨target, waits⟩ := waits_of_conclude runs (same ▸ unfinished)
    rw [told]
    rw [waits] at heard
    generalize found.phase = phase at *
    cases heard with
    | waits target phase works =>
      rw [List.append_nil]
      exact ⟨by simp [Phase.isCompletion, works], warnings_of_quiet all, storings_of_quiet all,
        fun _ _ _ _ member => all _ member, asked⟩
    | asks target phase works asks now call =>
      refine ⟨by simp [Phase.isCompletion, works], ?_, ?_, fun early => ?_, asked⟩
      · rw [warnings_append, warnings_of_quiet all]
        rfl
      · rw [storings_append, storings_of_quiet all]
        rfl
      · cases early.symm.trans asks
  · cases unfinished.2.symm.trans ended

/-- What happens in the turns of a completion that has not ended. -/
theorem hushed_play (env : Environment) (coherent : engine.Coherent (fun _ => True) none)
    (known : engine.loop.Unfinished task activity) (completes : activity.phase.isCompletion = true)
    (moves : List Move) {found : Activity Phase}
    (unfinished : (engine.play env moves).loop.Unfinished task found) :
    found.phase.isCompletion = true ∧
      Hushed (chronicle env task engine moves) activity.phase found.phase := by
  induction moves generalizing engine activity with
  | nil =>
    cases known.unique unfinished
    exact ⟨completes, .refl _⟩
  | cons move rest ih =>
    have coherent' := coherent.apply env move fun _ _ => trivial
    rw [chronicle]
    split
    · next awakens =>
      obtain ⟨rfl, woken⟩ := awakens?_eq_some_iff.mp awakens
      rcases turn_done_or_waits env coherent woken known with ended | ⟨next, known'⟩
      · obtain ⟨outcome, ended⟩ := Option.ne_none_iff_exists'.mp ((Loop.isDone_iff _ task).mp ended)
        cases unfinished.2.symm.trans (ended_play env coherent' ended rest)
      · obtain ⟨completes', hushed⟩ := hushed_turn env coherent woken known completes known'
        obtain ⟨completes'', hushed'⟩ := ih coherent' known' completes' unfinished
        exact ⟨completes'', hushed.trans hushed'⟩
    · next asleep =>
      obtain ⟨next, known', phase, -⟩ := (moved_apply env coherent move).unfinished coherent known
        fun turns woken => asleep (awakens?_eq_some_iff.mpr ⟨turns, woken⟩)
      rw [← phase] at completes ⊢
      rw [List.nil_append]
      exact ih coherent' known' completes unfinished

/-- The turns of a completion, of which the last one ends it. -/
theorem chronicle_split (env : Environment) (coherent : engine.Coherent (fun _ => True) none)
    {before after : List Move} (woken : (engine.play env before).woken? = some task)
    (ended : ((engine.play env before).apply env .turn).loop.outcome? task = some outcome) {told : List Event}
    (events : ((engine.play env before).apply env .turn).events = (engine.play env before).events ++ told) :
    chronicle env task engine (before ++ .turn :: after) = chronicle env task engine before ++ told := by
  have coherent' : (engine.play env before).Coherent (fun _ => True) none :=
    coherent.play env before fun _ _ => trivial
  rw [chronicle_append, chronicle, if_pos (awakens?_eq_some_iff.mpr ⟨rfl, woken⟩), events, List.drop_left,
    chronicle_of_ended env (coherent'.apply env .turn fun _ _ => trivial) ended, List.append_nil]

end Engine

end InlineCompletion
