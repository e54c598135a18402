import InlineCompletion.Proofs.Engine.Whereabouts

/-!
What the client is asked. The place is classified when its request begins and the prompt is made when the
request asks, maybe much later and with another model selected; still the one message of the call is the
prompt that a preview of that place shows.
-/

namespace InlineCompletion.Engine

variable {engine old new : Engine} {env : Environment} {run : Run} {touched : Nat → Prop} {task : Nat}
  {activity : Activity Phase} {phase : Phase} {outcome : Outcome} {step : Step}

/-! The settings of an orchestrator and its model. -/

/-- The settings of an orchestrator, and the model that is selected for it. -/
def deskOf (engine : Engine) (id : Nat) : Option (Settings × Text) :=
  engine.orchestrators[id]?.map fun o => (o.settings, o.model)

theorem deskOf_modify (engine : Engine) (orchestrator : Nat) {f : Orchestrator → Orchestrator}
    (same : ∀ o, (f o).settings = o.settings ∧ (f o).model = o.model) (id : Nat) :
    (engine.modifyOrchestrator orchestrator f).deskOf id = engine.deskOf id := by
  show ((engine.orchestrators.modify orchestrator f)[id]?).map _ = _
  rw [getElem?_modify]
  unfold deskOf
  split
  · cases engine.orchestrators[id]? with
    | none => rfl
    | some o => exact congrArg some (Prod.ext (same o).1 (same o).2)
  · rfl

theorem deskOf_lookUp (env : Environment) (engine : Engine) (run : Run) (cache : Cache Float) (id : Nat) :
    (engine.lookUp env run cache).2.deskOf id = engine.deskOf id := by
  unfold lookUp
  split
  · rfl
  · refine deskOf_modify _ _ (fun _ => ?_) id
    exact ⟨rfl, rfl⟩

theorem loop_lookUp (env : Environment) (engine : Engine) (run : Run) (cache : Cache Float) :
    (engine.lookUp env run cache).2.loop = engine.loop := by
  unfold lookUp
  split <;> rfl

theorem Succeeds.deskOf {orchestrator : Nat} {o : Orchestrator} (succeeds : Succeeds orchestrator o old new)
    (id : Nat) : new.deskOf id = old.deskOf id := by
  unfold Engine.deskOf
  rw [succeeds.orchestrators]
  refine deskOf_modify old _ (fun _ => ?_) id
  exact ⟨rfl, rfl⟩

/-! What a completion asks in one turn. -/

/-- The client is asked at the time of the turn, with the prompt for the place of the request and the model
that is selected, and it has the call when the turn ends. -/
structure Sends (run : Run) (old : Engine) (step : Step) (now : Nat) (call : Call) : Prop where
  now : now = old.loop.now
  made : ∃ settings model, old.deskOf run.orchestrator = some (settings, model) ∧ model ≠ [] ∧
    call = callFor settings model (Prompt.ofPlace settings run.facts run.document run.position)
  handed : ∃ target phase, step.2 = .wait target phase ∧ Handed step.1 call old.loop.futures.length phase

/-- Whatever the client is asked in a turn. -/
def Candid (run : Run) (old : Engine) (step : Step) : Prop :=
  ∃ told, step.1.events = old.events ++ told ∧
    ∀ request now call, .asked request now call ∈ told → Sends run old step now call

theorem Handed.earlier {call : Call} {first earlier : Nat} (handed : Handed engine call first phase)
    (before : earlier ≤ first) : Handed engine call earlier phase := by
  cases handed with
  | answers id owner fresh known => exact .answers id owner (Nat.le_trans before fresh) known
  | opens id consumer stream found opening => exact .opens id consumer stream found opening

theorem Candid.of_unasked {told : List Event} (events : step.1.events = old.events ++ told)
    (unasked : ∀ request now call, .asked request now call ∉ told) : Candid run old step :=
  ⟨told, events, fun request now call member => absurd member (unasked request now call)⟩

theorem Candid.of_silent (silent : Silent old step.1) : Candid run old step :=
  .of_unasked (silent.silent_events.trans (List.append_nil _).symm) fun _ _ _ => List.not_mem_nil

/-- Nobody is asked while an orchestrator keeps its settings, its model and the time. -/
theorem Candid.after {told : List Event} (candid : Candid run new step) (events : new.events = old.events ++ told)
    (unasked : ∀ request now call, .asked request now call ∉ told)
    (desk : new.deskOf run.orchestrator = old.deskOf run.orchestrator) (now : new.loop.now = old.loop.now)
    (grown : old.loop.futures.length ≤ new.loop.futures.length) : Candid run old step := by
  obtain ⟨later, events', sends⟩ := candid
  refine ⟨told ++ later, by rw [events', events, List.append_assoc], fun request time call member => ?_⟩
  have asked := (List.mem_append.mp member).resolve_left (unasked request time call)
  obtain ⟨time, made, target, phase, waits, handed⟩ := sends request time call asked
  exact ⟨time.trans now, desk ▸ made, target, phase, waits, handed.earlier grown⟩

/-- A completion that ends asks nobody. -/
theorem Told.candid (told : Told run old step) (ends : step.2 = .done outcome) : Candid run old step := by
  obtain ⟨quiet, main, events, all, heard⟩ := told
  rw [ends] at heard
  refine .of_unasked (by rw [events, List.append_assoc]) fun request now call member => ?_
  rcases List.mem_append.mp member with early | late
  · exact all _ early
  · cases heard with
    | ends => cases late
    | warns | stores => cases List.mem_singleton.mp late

theorem endRun_done (engine : Engine) (run : Run) (outcome : Outcome) :
    (engine.endRun run outcome).2 = .done outcome := rfl

theorem Decides.candid (decides : Decides env run old outcome step) : Candid run old step := by
  have told := decides.told
  cases decides with
  | asks o call new target phase passed live found selected silent outset made handed =>
    refine ⟨[.asked run.request old.loop.now call], silent.silent_events, fun request now other member => ?_⟩
    cases List.mem_singleton.mp member
    exact ⟨rfl, ⟨o.settings, o.model, by simp [deskOf, found], selected.1, made⟩, target, phase, rfl, handed⟩
  | unselected | stops => exact told.candid (endRun_done ..)

theorem Enters.candid {settings : Settings} {cache : Cache Float}
    (enters : Enters env run settings cache old step) : Candid run old step := by
  obtain ⟨told, looked, quiet⟩ := events_lookUp env old run cache
  have unasked (request now : Nat) (call : Call) : .asked request now call ∉ told := fun member => quiet _ member
  have heard := enters.told
  cases enters with
  | hit | overflows => exact heard.candid (endRun_done ..)
  | waits missed fits delayed new waiter watch silent =>
    exact .of_unasked (silent.silent_events.trans looked) unasked
  | decides missed fits undelayed step decides =>
    refine decides.candid.after looked unasked ?_ (congrArg _ (loop_lookUp env old run cache))
      (Nat.le_of_eq (congrArg (·.futures.length) (loop_lookUp env old run cache).symm))
    refine (deskOf_modify _ _ (fun _ => ?_) _).trans (deskOf_lookUp ..)
    exact ⟨rfl, rfl⟩

/-- In every turn of a completion the client is asked as it should be. -/
theorem Fares.candid (fares : Fares env old phase outcome run step) : Candid run old step := by
  cases fares with
  | enters o new begun found succeeds now enters =>
    obtain ⟨told, events, stops⟩ := succeeds.events
    exact enters.candid.after events (fun _ _ _ member => stops _ member) (succeeds.deskOf _) now
      succeeds.steady.length
  | weighs works unasked weighs =>
    generalize old.debounced? phase outcome = answer at weighs
    cases weighs with
    | waits new target watch timedOut silent => exact .of_silent silent
    | decides answer step decides => exact decides.candid
  | receives works asked receives =>
    generalize old.read? phase outcome = read at receives
    generalize old.called? phase outcome = called at receives
    cases receives with
    | waits new target phase silent works => exact .of_silent silent
    | ended new outcome silent =>
      obtain ⟨result, ends⟩ := afterCall_ends env run new outcome
      exact (Told.of_silent silent (told_afterCall ..)).candid ends

/-! What a completion asks in a run. -/

/-- What happens in the turns of a task happens in one of them. -/
theorem mem_chronicle {event : Event} {moves : List Move} (member : event ∈ chronicle env task engine moves) :
    ∃ before after, moves = before ++ .turn :: after ∧ (engine.play env before).woken? = some task ∧
      event ∈ ((engine.play env before).apply env .turn).events.drop (engine.play env before).events.length := by
  induction moves generalizing engine with
  | nil => cases member
  | cons move rest ih =>
    rcases List.mem_append.mp member with here | later
    · split at here
      · next awakens =>
        obtain ⟨rfl, woken⟩ := awakens?_eq_some_iff.mp awakens
        exact ⟨[], rest, rfl, woken, here⟩
      · cases here
    · obtain ⟨before, after, rfl, woken, there⟩ := ih later
      exact ⟨move :: before, after, rfl, woken, there⟩

/-- Whoever asks in a turn serves a request. -/
theorem serves_of_asked (env : Environment) (coherent : engine.Coherent touched none)
    (woken : engine.woken? = some task) (known : engine.loop.Unfinished task activity) {request now : Nat}
    {call : Call}
    (asked : .asked request now call ∈ (engine.apply env .turn).events.drop engine.events.length) :
    ∃ run, engine.Serves env task run := by
  obtain ⟨rest, first, same⟩ := turn_of_woken env coherent woken known
  have resumed := resumed_resume env coherent first known
  have awake := coherent.wake first known
  rw [same, (conclude_frame task _).2.2] at asked
  generalize Engine.resume _ env activity.phase (engine.incoming activity) = step at *
  cases resumed with
  | plays run works => exact ⟨run, .of_mine woken known (Or.inl works)⟩
  | begins orchestrator o run starts wanted found mine newest succeeds opened entered =>
    obtain ⟨document, position, phase, placed⟩ := entered
    refine ⟨run, .of_mine woken known (Or.inr ?_)⟩
    simp only [enters?, phase, if_neg wanted]
    exact Option.map_eq_some_iff.mpr ⟨o, found, placed.symm⟩
  | absent orchestrator starts wanted nowhere ends =>
    obtain ⟨told, events, stops⟩ := (retires_cancelCurrent awake orchestrator).events
    rw [ends, show (Engine.beginRequest _ orchestrator).2.events = engine.events ++ told from events,
      List.drop_left] at asked
    exact (stops _ asked).elim
  | assists idle unstarted assists =>
    obtain ⟨told, events, allowed⟩ := assists.aside.events
    rw [show step.1.events = engine.events ++ told from events, List.drop_left] at asked
    exact (allowed _ asked).elim

/-- A call that the client has in the course of a turn is there after it. -/
theorem Handed.park {call : Call} {first : Nat} {runner : Activity Phase}
    (handed : Handed engine call first phase) (target : Nat) (parked : Phase)
    (runs : engine.loop.Unfinished task runner) (apart : task < first) :
    Handed (engine.withLoop (·.park task parked target)) call first phase := by
  cases handed with
  | answers id owner fresh known =>
    exact .answers id owner fresh ((Loop.unfinished_park runs parked target id _).mpr
      (Or.inr ⟨Nat.ne_of_gt (Nat.lt_of_lt_of_le apart fresh), known⟩))
  | opens id consumer stream found opening => exact .opens id consumer stream found opening

/-- The client is asked what a preview shows. Whenever the task that was made for a request asks, in a turn of
its own, the call has one message of the user, which is the prompt that the place of the request has by itself,
the instructions for every prompt, the model that is selected in that moment, which is not empty, and the
bounds of the settings. It is that call that the client then has, and that the task waits for. -/
theorem asked_as_previewed (env : Environment) (client : Client) (seats : List (Settings × Cache Float))
    (past : List Move) (orchestrator : Nat) (document : Document) (position : Position) {settings : Settings}
    {cache : Cache Float} (seat : seats[orchestrator]? = some (settings, cache)) :
    let task := (reached env client seats past).loop.futures.length
    let made := reached env client seats (past ++ [.request orchestrator document position])
    ∀ moves request now call, .asked request now call ∈ chronicle env task made moves →
      ∃ before after model target phase, moves = before ++ .turn :: after ∧
        (made.play env before).woken? = some task ∧ now = (made.play env before).loop.now ∧
        (made.play env before).modelOf orchestrator = some model ∧ model ≠ [] ∧
        call =
          { streamed := settings.stream
            messages := [⟨.user, (Prompt.preview settings document position).render⟩]
            model := some model
            system := some systemPrompt
            maxTokens := .int settings.maxTokens
            temperature := .real settings.temperature } ∧
        (made.play env (before ++ [.turn])).loop.Unfinished task { phase, waitingFor := some target } ∧
        Handed (made.play env (before ++ [.turn])) call (made.play env before).loop.futures.length phase := by
  intro task made moves request now call asked
  have coherent : made.Coherent (fun _ => True) none := coherent_reached ..
  obtain ⟨before, after, split, woken, asked⟩ := mem_chronicle asked
  have coherent' : (made.play env before).Coherent (fun _ => True) none :=
    coherent.play env before fun _ _ => trivial
  have turn : made.play env (before ++ [.turn]) = (made.play env before).apply env .turn := play_append ..
  obtain ⟨-, ready, first⟩ := woken?_eq_some_iff.mp woken
  obtain ⟨activity, known, -⟩ := Loop.Sound.wake coherent'.sound first
  obtain ⟨run, serves⟩ := serves_of_asked env coherent' woken known asked
  have entered := entering_of_serves env client seats past orchestrator document position seat serves
  obtain ⟨activity, rest, step, known, first, same, ⟨runner, runs⟩, fares⟩ := fares_turn env coherent' serves
  obtain ⟨told, events, sends⟩ := fares.candid
  have events : step.1.events = (made.play env before).events ++ told := events
  rw [same, (conclude_frame task step).2.2, events, List.drop_left] at asked
  obtain ⟨now', ⟨settings', model, desk, chosen, rfl⟩, target, phase, waits, handed⟩ :=
    sends request now call asked
  have mine : run.orchestrator = orchestrator := congrArg Run.orchestrator entered
  -- The settings are those of the seat, so that the prompt is that of the place.
  obtain ⟨o, found, pair⟩ := Option.map_eq_some_iff.mp desk
  cases pair
  have found : (made.play env before).orchestrators[run.orchestrator]? = some o := found
  have all : made.play env before = reached env client seats
      (past ++ [.request orchestrator document position] ++ before) := (play_append ..).symm
  obtain ⟨cache', seat'⟩ := settings_reached env client seats _ (all ▸ found)
  cases seat.symm.trans (mine ▸ seat')
  have place : Prompt.ofPlace o.settings run.facts run.document run.position =
      Prompt.preview o.settings document position := by
    rw [entered]
    rfl
  have selected : (made.play env before).modelOf orchestrator = some o.model := by
    unfold modelOf
    rw [← mine, found]
    rfl
  obtain ⟨last, verdict⟩ := step
  cases waits
  have there := handed.park target phase runs (known.lt.trans_eq (Loop.length_setActivity ..).symm)
  rw [place] at there ⊢
  refine ⟨before, after, o.model, target, phase, split, woken, now', selected, chosen, rfl, ?_, ?_⟩
  · rw [turn, same]
    exact (Loop.unfinished_park runs phase target task _).mpr (Or.inl ⟨rfl, rfl⟩)
  · rw [turn, same]
    exact (Loop.length_setActivity _ _ _) ▸ there

/-- A model is asked for a whole answer once a millisecond has passed. -/
def patient : Settings := { whole with debounceMs := 1 }

abbrev patientSeats : List (Settings × Cache Float) := [(patient, ⟨1, 300, []⟩)]

/-- While a completion waits another model is selected, and then its time has come. -/
def switchWhileWaiting : List Move :=
  [.turn, .turn, .selectModel 0 ['b'], .pass 1000000, .fireTimers] ++ List.replicate 6 .turn

/-- A model is asked at a time. -/
def asksAt (now : Nat) (model : Text) : Event → Bool
  | .asked _ time call => time = now && call.model = some model
  | _ => false

/-- The other model is asked what the preview shows. -/
theorem asked_as_previewed_switched :
    let made := reached frozen sharedClient patientSeats [.request 0 scriptPage ⟨0, 0⟩]
    ∃ request call, .asked request 1000000 call ∈ chronicle frozen 0 made switchWhileWaiting ∧
      call.model = some ['b'] ∧
      call.messages = [⟨.user, (Prompt.preview patient scriptPage ⟨0, 0⟩).render⟩] := by
  intro made
  have asks : (chronicle frozen 0 made switchWhileWaiting).any (asksAt 1000000 ['b']) = true := by decide +kernel
  obtain ⟨event, member, asks⟩ := List.any_eq_true.mp asks
  cases event with
  | asked request now call =>
    simp only [asksAt, Bool.and_eq_true, decide_eq_true_eq] at asks
    obtain ⟨rfl, selected⟩ := asks
    obtain ⟨_, _, model, _, _, _, _, _, _, _, rfl, _⟩ := asked_as_previewed frozen sharedClient patientSeats []
      0 scriptPage ⟨0, 0⟩ rfl switchWhileWaiting request 1000000 call member
    exact ⟨request, _, member, selected, rfl⟩
  | recorded | consulted | stored | notified | stoppedCall | stoppedStream => cases asks

end InlineCompletion.Engine
