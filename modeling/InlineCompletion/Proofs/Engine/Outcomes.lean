import Mathlib.Data.List.Induction
import InlineCompletion.Proofs.Engine.Chronicle
import InlineCompletion.Proofs.Engine.Replays
import InlineCompletion.Proofs.Engine.Bursts
import InlineCompletion.Proofs.Reply.Overlaps

/-!
What a completion comes to that nobody cancels. It ends with nothing or with a text that shows something;
a call that fails ends it with nothing and one warning at most, and so does a missing model. The one
failure that its owner gets to see is that of a delay whose seconds are no number.
-/

namespace InlineCompletion

open Text

/-- What the owner of a completion gets. The failure is left to those whose delay is no number. -/
inductive Outcome.Proper (overflows : Prop) : Outcome → Prop where
  | nothing : Proper overflows (.value .nothing)
  | shown (text : Text) (visible : allBlank text = false) : Proper overflows (.value (.text text))
  | overflow (given : overflows) : Proper overflows (.failed Settings.delayOverflow)

theorem Run.proper_insertion (run : Run) (completion : Text) (overflows : Prop) :
    (Outcome.value (run.insertion completion)).Proper overflows := by
  unfold Run.insertion
  split
  · exact .nothing
  · next text given => exact .shown text (Overlap.allBlank_unique given)

theorem Settings.not_overflows_of_undelayed {settings : Settings} (undelayed : settings.delay = 0) :
    settings.debounceOverflows = false := by
  have none : settings.debounceMs.toNat = 0 := by
    simpa [Settings.delay, Engine.nanosecondsPerMillisecond] using undelayed
  unfold Settings.debounceOverflows
  rw [none]
  rfl

namespace Engine

variable {engine old new : Engine} {env : Environment} {run : Run} {touched : Nat → Prop} {task : Nat}
  {activity : Activity Phase} {phase : Phase} {outcome : Outcome} {step : Step} {cancels overflows : Prop}

/-- How a completion goes on: it waits, or it ends as its owner may expect. -/
def Verdict.Proper (cancels overflows : Prop) (run : Run) : Verdict → Prop
  | .wait _ phase => phase.run? = some run
  | .done outcome => outcome = .cancelled ∧ cancels ∨ outcome.Proper overflows

theorem proper_acceptReply (env : Environment) (engine : Engine) (run : Run) (raw : Text) :
    Verdict.Proper cancels overflows run (engine.acceptReply env run raw).2 := by
  unfold acceptReply
  split
  · exact Or.inr .nothing
  · dsimp only
    split
    · exact Or.inr .nothing
    · exact Or.inr (run.proper_insertion _ overflows)

theorem proper_afterCall (env : Environment) (engine : Engine) (run : Run) (tame : outcome.Tame) :
    Verdict.Proper True overflows run (engine.afterCall env run outcome).2 := by
  cases outcome with
  | cancelled => exact Or.inl ⟨rfl, trivial⟩
  | failed failure =>
    have deals : failure.kind ≠ .interrupt := tame failure rfl
    unfold afterCall
    dsimp only
    rw [if_neg deals]
    split <;> exact Or.inr .nothing
  | value v =>
    unfold afterCall
    dsimp only
    split
    · exact proper_acceptReply ..
    · exact Or.inr .nothing

theorem Decides.proper (decides : Decides env run old outcome step)
    (calm : ∀ failure, outcome ≠ .failed failure) :
    Verdict.Proper (outcome = .cancelled) overflows run step.2 := by
  cases decides with
  | asks o call new target phase passed live found selected silent outset => exact outset.works
  | unselected => exact Or.inr .nothing
  | stops result same =>
    rcases same with ⟨rfl, other⟩ | rfl
    · cases result with
      | value v => exact absurd rfl (other v)
      | failed failure => exact absurd rfl (calm failure)
      | cancelled => exact Or.inl ⟨rfl, rfl⟩
    · exact Or.inr .nothing

theorem Verdict.Proper.mono {more : Prop} {verdict : Verdict}
    (proper : Verdict.Proper cancels overflows run verdict)
    (weaker : cancels → more) : Verdict.Proper more overflows run verdict := by
  cases verdict with
  | wait target phase => exact proper
  | done outcome => exact proper.imp_left fun cancelled => ⟨cancelled.1, weaker cancelled.2⟩

theorem Enters.proper {settings : Settings} {cache : Cache Float}
    (enters : Enters env run settings cache old step) (mine : settings.debounceOverflows = true → overflows) :
    Verdict.Proper False overflows run step.2 := by
  cases enters with
  | hit entry => exact Or.inr (run.proper_insertion _ overflows)
  | overflows missed given => exact Or.inr (.overflow (mine given))
  | waits => exact rfl
  | decides missed fits undelayed step decides =>
    exact (decides.proper (fun _ same => by cases same)).mono fun same => by cases same

/-- A turn of a completion whose call and debounce come to what it can deal with. -/
theorem Fares.proper (fares : Fares env old phase outcome run step)
    (calls : ∀ ended, old.called? phase outcome = some ended → ended.Tame)
    (answers : ∀ failure, old.debounced? phase outcome ≠ some (.failed failure))
    (mine : ∀ o, old.orchestrators[run.orchestrator]? = some o →
      o.settings.debounceOverflows = true → overflows) :
    Verdict.Proper (phase.run? = some run) overflows run step.2 := by
  cases fares with
  | enters o new begun found succeeds now enters => exact (enters.proper (mine o found)).mono False.elim
  | weighs works unasked weighs =>
    generalize answered : old.debounced? phase outcome = answer at *
    cases weighs with
    | waits => exact rfl
    | decides answer step decides =>
      exact (decides.proper fun failure same => answers failure (congrArg some same)).mono fun _ => works
  | receives works asked receives =>
    generalize old.read? phase outcome = read at receives
    generalize comes : old.called? phase outcome = called at *
    cases receives with
    | waits new target phase silent works => exact works
    | ended new outcome silent => exact (proper_afterCall env new run (calls outcome rfl)).mono fun _ => works

/-- The answer of a debounce is never a failure. -/
theorem Fits.calm_debounced (fits : engine.Fits touched none task activity) (failure : Failure) :
    engine.debounced? activity.phase outcome ≠ some (.failed failure) := by
  intro failed
  cases fits with
  | debouncing watch run phase vigil unstruck calm =>
    rw [phase] at failed
    simp only [debounced?] at failed
    split at failed
    · cases ended : engine.loop.outcome? watch with
      | none => rw [ended] at failed; cases failed
      | some outcome =>
        cases outcome with
        | failed failure => exact calm failure ended
        | value | cancelled => rw [ended] at failed; cases failed
    · cases failed
  | unwinding watch timedOut run phase =>
    rw [phase] at failed
    simp only [debounced?] at failed
    split at failed <;> cases failed
  | start _ phase | watching phase | answering _ phase | pulling _ phase | calling _ _ phase
  | reading _ _ _ _ _ phase | closing _ _ _ _ phase =>
    rw [phase] at failed
    cases failed

theorem debounced?_wakeFirst (engine : Engine) (rest : List Handle) (task : Nat) (mine phase : Phase)
    (outcome : Outcome) :
    ({ engine with loop := engine.loop.wakeFirst rest task mine } : Engine).debounced? phase
      outcome = engine.debounced? phase outcome := by
  unfold debounced? Loop.isDone
  simp only [Loop.outcome?_wakeFirst]

/-- A turn of a task that serves a request leaves it waiting for that, or ends it as its owner may expect. -/
theorem proper_turn (env : Environment) (coherent : engine.Coherent touched none) (tame : engine.Tame)
    (serves : engine.Serves env task run) (mine : ∀ o, engine.orchestrators[run.orchestrator]? = some o →
      o.settings.debounceOverflows = true → overflows) :
    (engine.apply env .turn).runOf task = some run ∨ ∃ outcome,
      (engine.apply env .turn).loop.outcome? task = some outcome ∧
        (outcome = .cancelled ∧ engine.runOf task = some run ∨ outcome.Proper overflows) := by
  obtain ⟨activity, rest, step, known, first, same, ⟨runner, runs⟩, fares⟩ := fares_turn env coherent serves
  have fits := coherent.fits task activity known nofun
  have calls (ended : Outcome)
    (comes : engine.called? activity.phase (engine.incoming activity) = some ended) :
      ended.Tame := tame.called (tame.phases task activity known) (tame.incoming activity) comes
  have answers (failure : Failure) : engine.debounced? activity.phase (engine.incoming activity) ≠
      some (.failed failure) := fits.calm_debounced failure
  simp only [← debounced?_wakeFirst engine rest task activity.phase] at answers
  have proper : Verdict.Proper _ overflows run step.2 := fares.proper calls answers mine
  rw [same]
  obtain ⟨last, verdict⟩ := step
  cases verdict with
  | wait target phase =>
    refine Or.inl (runOf_eq_some_iff.mpr ⟨{ phase, waitingFor := some target }, ?_, proper⟩)
    exact (Loop.unfinished_park runs phase target task _).mpr (Or.inl ⟨rfl, rfl⟩)
  | done outcome =>
    refine Or.inr ⟨outcome, outcome?_conclude runs outcome, proper.imp_left fun cancelled =>
      ⟨cancelled.1, ?_⟩⟩
    exact runOf_eq_some_iff.mpr ⟨activity, known, cancelled.2⟩

/-- A completion under way that is cancelled has been cancelled by its owner. -/
theorem touched_of_cancelled (env : Environment) (coherent : engine.Coherent touched none)
    (woken : engine.woken? = some task) (works : engine.runOf task = some run)
    (cancelled : (engine.apply env .turn).loop.outcome? task = some .cancelled) : touched task := by
  obtain ⟨activity, known, works⟩ := runOf_eq_some_iff.mp works
  obtain ⟨rest, first, same⟩ := turn_of_woken env coherent woken known
  obtain ⟨-, orderly⟩ := inOrder_resume env coherent first known
  have steady := (resumed_resume env coherent first known).steady (coherent.wake first known)
  obtain ⟨runner, runs, phase, -⟩ := steady.after task _
    ((Loop.unfinished_wakeFirst rest known activity.phase task _).mpr (Or.inl ⟨rfl, rfl⟩))
  rw [same] at cancelled
  generalize Engine.resume _ env activity.phase (engine.incoming activity) = step at *
  obtain ⟨last, verdict⟩ := step
  cases verdict with
  | wait target next =>
    have parked := (Loop.unfinished_park runs next target task _).mpr (Or.inl ⟨rfl, rfl⟩)
    cases parked.2.symm.trans cancelled
  | done outcome =>
    cases (outcome?_conclude runs outcome).symm.trans cancelled
    exact orderly.wanted runner run runs (phase ▸ works) rfl

/-- A completion that is cancelled before it begins has been cancelled by its owner. -/
theorem Fits.touched_of_start (fits : engine.Fits touched none task activity)
    (completes : activity.phase.isCompletion = true) {orchestrator : Nat}
    (starts : activity.phase.starts? = some orchestrator)
    (cancelled : engine.incoming activity = .cancelled) :
    touched task := by
  cases fits with
  | start job phase internal idle wanted =>
    rw [phase] at completes
    rcases roused_of_incoming cancelled with requested | ⟨target, waits, -⟩
    · exact wanted completes requested
    · cases idle.symm.trans waits
  | watching phase | answering _ phase | pulling _ phase | debouncing _ _ phase | unwinding _ _ _ phase
  | calling _ _ phase | reading _ _ _ _ _ phase | closing _ _ _ _ phase =>
    rw [phase] at starts
    cases starts

/-- Where a task stands that was made for a completion of an orchestrator. -/
inductive Attends (overflows : Prop) (engine : Engine) (task orchestrator : Nat) : Prop where
  | begins (activity : Activity Phase) (known : engine.loop.Unfinished task activity)
    (starts : activity.phase.starts? = some orchestrator)
  | works (run : Run) (works : engine.runOf task = some run) (mine : run.orchestrator = orchestrator)
  | ended (outcome : Outcome) (ended : engine.loop.outcome? task = some outcome)
    (proper : outcome.Proper overflows)

theorem Attends.apply {orchestrator : Nat} (attends : Attends overflows engine task orchestrator)
    (env : Environment) (coherent : engine.Coherent touched none) (tame : engine.Tame)
    (untouched : ¬touched task)
    (mine : ∀ o, engine.orchestrators[orchestrator]? = some o →
      o.settings.debounceOverflows = true → overflows)
    (move : Move) : Attends overflows (engine.apply env move) task orchestrator := by
  have moved := moved_apply env coherent move
  have served {run : Run} (serves : engine.Serves env task run) (same : run.orchestrator = orchestrator) :
      Attends overflows (engine.apply env .turn) task orchestrator := by
    rcases proper_turn env coherent tame serves (same ▸ mine) with
      works | ⟨outcome, ended, ⟨rfl, works⟩ | proper⟩
    · exact .works run works same
    · exact absurd (touched_of_cancelled env coherent serves.1 works ended) untouched
    · exact .ended outcome ended proper
  cases attends with
  | begins activity known starts =>
    by_cases woken : move = .turn ∧ engine.woken? = some task
    · obtain ⟨rfl, woken⟩ := woken
      have completes : activity.phase.isCompletion = true := by simp [Phase.isCompletion, starts]
      rcases serves_or_ends env coherent woken known completes with
        ⟨run, serves⟩ | ⟨outcome, ended, early | rfl⟩
      · refine served serves ?_
        rcases serves.mine known with works | begun
        · cases (Phase.run?_of_starts starts).symm.trans works
        · obtain ⟨-, o, starts', -⟩ := starts?_of_mem_enters? begun
          exact Option.some.inj (starts'.symm.trans starts)
      · have fits := coherent.fits task activity known (by simp)
        exact absurd (fits.touched_of_start completes starts early.2) untouched
      · exact .ended _ ended .nothing
    · obtain ⟨found, known', phase, -⟩ := moved.unfinished coherent known fun turns => not_and.mp woken turns
      exact .begins found known' (phase ▸ starts)
  | works run works same =>
    by_cases woken : move = .turn ∧ engine.woken? = some task
    · obtain ⟨rfl, woken⟩ := woken
      exact served ⟨woken, Or.inl works⟩ same
    · obtain ⟨activity, known, works⟩ := runOf_eq_some_iff.mp works
      obtain ⟨found, known', phase, -⟩ := moved.unfinished coherent known fun turns => not_and.mp woken turns
      exact .works run (runOf_eq_some_iff.mpr ⟨found, known', phase ▸ works⟩) same
  | ended outcome ended proper => exact .ended outcome (moved.ended coherent ended) proper

/-- What the call of a completion comes to in the next turn of its task. -/
def comes? (engine : Engine) (task : Nat) : Option Outcome :=
  (engine.loop.activity? task).bind fun activity => engine.called? activity.phase (engine.incoming activity)

/-- What the debounce of a completion answers in the next turn of its task. -/
def answers? (engine : Engine) (task : Nat) : Option Outcome :=
  (engine.loop.activity? task).bind fun activity =>
    engine.debounced? activity.phase (engine.incoming activity)

/-- The debounce of a live request ends in the next turn of its task: it was left alone for its time, or it
begins without delay and the cache has no answer. -/
inductive Elapses (env : Environment) (engine : Engine) (task : Nat) (run : Run) : Prop where
  | passes (answered : engine.answers? task = some (.value (.truth true))) (live : engine.isLive run = true)
  | atOnce (o : Orchestrator) (begun : run ∈ engine.entering? env .turn)
    (found : engine.orchestrators[run.orchestrator]? = some o)
    (missed : (engine.lookUp env run o.cache).1 = none)
    (undelayed : o.settings.delay = 0)

/-! A call that fails. -/

theorem asked_of_called {called : Outcome} (comes : engine.called? phase outcome = some called) :
    phase.asked = true := by
  unfold called? at comes
  split at comes
  · rfl
  · rfl
  · rfl
  · cases comes

theorem not_asked_of_debounced {answer : Outcome} (answered : engine.debounced? phase outcome = some answer) :
    phase.asked = false := by
  unfold debounced? at answered
  split at answered
  · rfl
  · rfl
  · cases answered

/-- When its call comes to something the completion goes on with that. -/
theorem Fares.receives_of_called (fares : Fares env old phase outcome run step) {called : Outcome}
    (comes : old.called? phase outcome = some called) :
    ∃ new, Silent old new ∧ step = new.afterCall env run called := by
  have asked := asked_of_called comes
  cases fares with
  | enters o new begun =>
    obtain ⟨-, o', starts, -⟩ := starts?_of_mem_enters? begun
    obtain ⟨run', works⟩ := Phase.works_of_asked asked
    cases (Phase.run?_of_starts starts).symm.trans works
  | weighs works unasked => cases unasked.symm.trans asked
  | receives works asked receives =>
    generalize old.read? phase outcome = read at receives
    rw [comes] at receives
    cases receives with
    | ended new outcome silent => exact ⟨new, silent, rfl⟩

/-- A failure ends a completion with nothing, and its user is told of it unless it was stopped. -/
theorem Fares.fails (fares : Fares env old phase outcome run step) {failure : Failure} (tame : failure.Tame)
    (comes : old.called? phase outcome = some (.failed failure)) : step.2 = .done (.value .nothing) ∧
      step.1.events = old.events ++
        (if old.isLive run = true ∧ failure.kind ≠ .aborted then [.notified (.failed failure)] else []) ∧
      ∀ id, step.1.stockOf id = old.stockOf id := by
  obtain ⟨new, silent, rfl⟩ := fares.receives_of_called comes
  have deals : failure.kind ≠ .interrupt := tame
  rw [← silent.kept.isLive run, ← silent.silent_events]
  have kept (id : Nat) := (stockOf_of_orchestrators silent.orchestrators id)
  simp only [← kept]
  unfold afterCall
  dsimp only
  rw [if_neg deals]
  by_cases told : new.isLive run = true ∧ failure.kind ≠ .aborted
  · rw [if_pos told, if_neg (by simp [told])]
    exact ⟨rfl, events_endRun .., fun _ => stockOf_endRun ..⟩
  · rw [if_neg told, if_pos (by simpa [imp_iff_not_or, or_comm] using told), List.append_nil]
    exact ⟨rfl, events_endRun .., fun _ => stockOf_endRun ..⟩

/-! A model that is missing. -/

/-- The model that is selected for an orchestrator; empty while there is none. -/
def modelOf (engine : Engine) (id : Nat) : Option Text :=
  engine.orchestrators[id]?.map (·.model)

theorem modelOf_modify (engine : Engine) (orchestrator : Nat) {f : Orchestrator → Orchestrator}
    (same : ∀ o, (f o).model = o.model) (id : Nat) :
    (engine.modifyOrchestrator orchestrator f).modelOf id = engine.modelOf id := by
  show ((engine.orchestrators.modify orchestrator f)[id]?).map _ = _
  rw [getElem?_modify]
  unfold modelOf
  split
  · cases engine.orchestrators[id]? with
    | none => rfl
    | some o => exact congrArg some (same o)
  · rfl

theorem modelOf_lookUp (env : Environment) (engine : Engine) (run : Run) (cache : Cache Float) (id : Nat) :
    (engine.lookUp env run cache).2.modelOf id = engine.modelOf id := by
  unfold lookUp
  split
  · rfl
  · exact modelOf_modify _ _ (fun _ => by rfl) id

theorem Succeeds.modelOf {orchestrator : Nat} {o : Orchestrator} (succeeds : Succeeds orchestrator o old new)
    (id : Nat) : new.modelOf id = old.modelOf id := by
  unfold Engine.modelOf
  rw [succeeds.orchestrators]
  exact modelOf_modify old _ (fun _ => by rfl) id

theorem Decides.unselected_eq (decides : Decides env run old (.value (.truth true)) step)
    (live : old.isLive run = true) (none : old.modelOf run.orchestrator = some []) :
    step = (old.notify .noModel).endRun run (.value .nothing) := by
  unfold modelOf at none
  cases decides with
  | asks o call new target phase passed live' found selected =>
    rw [found] at none
    exact absurd (Option.some.inj none) selected.1
  | unselected => rfl
  | stops result same why => exact why.elim (absurd rfl) fun late => by cases late.symm.trans live

theorem Enters.unselected {o : Orchestrator} (enters : Enters env run o.settings o.cache old step)
    (live : old.isLive run = true) (found : old.orchestrators[run.orchestrator]? = some o)
    (none : old.modelOf run.orchestrator = some []) (missed : (old.lookUp env run o.cache).1 = .none)
    (undelayed : o.settings.delay = 0) : step.2 = .done (.value .nothing) ∧
      step.1.events = (old.lookUp env run o.cache).2.events ++ [.notified .noModel] := by
  cases enters with
  | hit entry found => cases missed.symm.trans found
  | overflows missed' given => cases (Settings.not_overflows_of_undelayed undelayed).symm.trans given
  | waits missed' fits delayed => exact absurd undelayed delayed
  | decides missed' fits undelayed' step decides =>
    have looked : Deed env run old (old.lookUp env run o.cache).2 := .consults old o live found
    have waiting : ((old.lookUp env run o.cache).2.setStage run.orchestrator .debouncing).isLive run = true :=
      ((looked.kept.trans (kept_modifyOrchestrator _ _ _ fun _ => by rfl)).isLive run).trans live
    have none' : ((old.lookUp env run o.cache).2.setStage run.orchestrator .debouncing).modelOf
      run.orchestrator =
        some [] := by
      refine (modelOf_modify _ _ (fun _ => ?_) _).trans ((modelOf_lookUp ..).trans none)
      rfl
    rw [decides.unselected_eq waiting none']
    exact ⟨rfl, events_endRun ..⟩

/-- A request that begins takes the first turn of its task. -/
theorem Fares.of_begun (fares : Fares env old phase outcome run step)
    (begun : run ∈ old.enters? env phase outcome) :
    ∃ o new, old.orchestrators[run.orchestrator]? = some o ∧ Succeeds run.orchestrator o old new ∧
      new.loop.now = old.loop.now ∧ Enters env run o.settings o.cache new step := by
  obtain ⟨-, o, starts, -⟩ := starts?_of_mem_enters? begun
  cases fares with
  | enters o new begun found succeeds now enters => exact ⟨o, new, found, succeeds, now, enters⟩
  | weighs works | receives works => cases (Phase.run?_of_starts starts).symm.trans works

/-- A live request whose debounce ends finds no model: it ends with nothing, and its user is told so. -/
theorem Fares.unselected (fares : Fares env old phase outcome run step)
    (none : old.modelOf run.orchestrator = some [])
    (elapses : (old.debounced? phase outcome = some (.value (.truth true)) ∧ old.isLive run = true) ∨
      ∃ o, run ∈ old.enters? env phase outcome ∧ old.orchestrators[run.orchestrator]? = some o ∧
        (old.lookUp env run o.cache).1 = .none ∧ o.settings.delay = 0) :
    step.2 = .done (.value .nothing) ∧ ∃ quiet, step.1.events =
      old.events ++ (quiet ++ [.notified .noModel]) ∧
      ∀ event ∈ quiet, event.Quiet := by
  rcases elapses with ⟨answered, live⟩ | ⟨o, begun, found, missed, undelayed⟩
  · cases fares with
    | enters o new begun =>
      obtain ⟨-, -, starts, -⟩ := starts?_of_mem_enters? begun
      unfold debounced? at answered
      split at answered
      · cases starts
      · cases starts
      · cases answered
    | weighs works unasked weighs =>
      rw [answered] at weighs
      cases weighs with
      | decides answer step decides =>
        rw [decides.unselected_eq live none]
        exact ⟨rfl, [], events_endRun .., fun _ member => absurd member List.not_mem_nil⟩
    | receives works asked => cases (not_asked_of_debounced answered).symm.trans asked
  · obtain ⟨o', new, found', succeeds, now, enters⟩ := fares.of_begun begun
    cases found.symm.trans found'
    obtain ⟨-, -, -, -, -, newest⟩ := starts?_of_mem_enters? begun
    have live : new.isLive run = true := succeeds.isLive found rfl newest
    have seated : new.orchestrators[run.orchestrator]? =
        some { o.retired with current := some old.requests.length } := by
      simp [succeeds.orchestrators, found]
    have ends := Enters.unselected (o := { o.retired with current := some old.requests.length }) enters
      live seated
      ((succeeds.modelOf _).trans none) ((lookUp_fst_congr env run o.cache now).trans missed) undelayed
    obtain ⟨told, events, stops⟩ := succeeds.events
    obtain ⟨told', looked, quiet⟩ := events_lookUp env new run o.cache
    refine ⟨ends.1, told ++ told', ?_, fun event member => ?_⟩
    · rw [ends.2]
      show (new.lookUp env run o.cache).2.events ++ _ = _
      rw [looked, events]
      simp only [List.append_assoc]
    · exact (List.mem_append.mp member).elim (fun member => Event.Stopping.quiet (stops event member))
        (quiet event)

/-- The one failure that comes out. -/
theorem Fares.delay_overflows (fares : Fares env old phase outcome run step)
    (begun : run ∈ old.enters? env phase outcome) {o : Orchestrator}
    (found : old.orchestrators[run.orchestrator]? = some o) (missed : (old.lookUp env run o.cache).1 = none)
    (given : o.settings.debounceOverflows = true) : step.2 = .done (.failed Settings.delayOverflow) := by
  obtain ⟨o', new, found', succeeds, now, enters⟩ := fares.of_begun begun
  cases found.symm.trans found'
  rw [← lookUp_fst_congr env run o.cache now] at missed
  cases enters with
  | hit entry found => cases missed.symm.trans found
  | overflows => rfl
  | waits missed' fits | decides missed' fits => cases fits.symm.trans given

/-! A whole run. -/

theorem enters?_of_entering (begun : run ∈ engine.entering? env .turn) (woken : engine.woken? = some task)
    (known : engine.loop.Unfinished task activity) :
    run ∈ engine.enters? env activity.phase (engine.incoming activity) := by
  obtain ⟨other, woken', rest⟩ := Option.bind_eq_some_iff.mp begun
  cases woken.symm.trans woken'
  obtain ⟨found, there, enters⟩ := Option.bind_eq_some_iff.mp rest
  cases there.symm.trans known.1
  exact enters

theorem Elapses.unasked (elapses : engine.Elapses env task run) (woken : engine.woken? = some task)
    (known : engine.loop.Unfinished task activity) : activity.phase.asked = false := by
  cases elapses with
  | passes answered live =>
    simp only [answers?, known.1, Option.bind_some] at answered
    exact not_asked_of_debounced answered
  | atOnce o begun =>
    obtain ⟨-, -, starts, -⟩ := starts?_of_mem_enters? (enters?_of_entering begun woken known)
    refine Bool.eq_false_iff.mpr fun asked => ?_
    obtain ⟨other, works⟩ := Phase.works_of_asked asked
    cases (Phase.run?_of_starts starts).symm.trans works

/-- The end of the debounce, as the task finds it when it runs. -/
theorem Elapses.awake (elapses : engine.Elapses env task run) (woken : engine.woken? = some task)
    (known : engine.loop.Unfinished task activity) (rest : List Handle) :
    let awake : Engine := { engine with loop := engine.loop.wakeFirst rest task activity.phase }
    (awake.debounced? activity.phase (engine.incoming activity) = some (.value (.truth true)) ∧
      awake.isLive run = true) ∨
      ∃ o, run ∈ awake.enters? env activity.phase (engine.incoming activity) ∧
        awake.orchestrators[run.orchestrator]? = some o ∧ (awake.lookUp env run o.cache).1 = none ∧
        o.settings.delay = 0 := by
  intro awake
  have now : awake.loop.now = engine.loop.now := rfl
  cases elapses with
  | passes answered live =>
    simp only [answers?, known.1, Option.bind_some] at answered
    exact Or.inl ⟨(debounced?_wakeFirst ..).trans answered, live⟩
  | atOnce o begun found missed undelayed =>
    exact Or.inr ⟨o, enters?_of_entering begun woken known, found,
      (lookUp_fst_congr env run o.cache now).trans missed, undelayed⟩

/-- A request makes a task, which is about to begin. -/
theorem unfinished_request (env : Environment) (client : Client) (seats : List (Settings × Cache Float))
    (past : List Move) (orchestrator : Nat) (document : Document) (position : Position) :
    (reached env client seats (past ++ [.request orchestrator document position])).loop.Unfinished
      (reached env client seats past).loop.futures.length
      { phase := .start (.complete orchestrator document position) } := by
  rw [reached_append_singleton]
  exact unfinished_new ..

/-- A completion that nobody cancels is under way, or it has ended as its owner may expect. -/
theorem attends_reached (env : Environment) {client : Client} (tame : client.Tame)
    (seats : List (Settings × Cache Float)) (past later : List Move) (orchestrator : Nat)
    (document : Document)
    (position : Position)
    (harmless : ∀ move ∈ past ++ .request orchestrator document position :: later, move.Tame)
    (untouched : .cancelTask (reached env client seats past).loop.futures.length ∉
      past ++ .request orchestrator document position :: later) :
    Attends (∃ seat, seats[orchestrator]? = some seat ∧ seat.1.debounceOverflows = true)
      (reached env client seats (past ++ .request orchestrator document position :: later))
      (reached env client seats past).loop.futures.length orchestrator := by
  induction later using List.reverseRecOn with
  | nil => exact .begins _ (unfinished_request ..) rfl
  | append_singleton earlier move ih =>
    have split : past ++ .request orchestrator document position :: (earlier ++ [move]) =
        (past ++ .request orchestrator document position :: earlier) ++ [move] := by simp
    rw [split] at harmless untouched ⊢
    have untouched' := fun member => untouched (List.mem_append_left _ member)
    have harmless' := fun move member => harmless move (List.mem_append_left _ member)
    rw [reached_append_singleton]
    refine (ih harmless' untouched').apply env (coherent_play env client seats _)
      (tame_play env tame seats harmless') untouched' (fun o found given => ?_) move
    obtain ⟨cache, seat⟩ := settings_reached env client seats _ found
    exact ⟨_, seat, given⟩

/-- A delay that is accepted, and whose seconds are no number. -/
def endless : Settings := { whole with debounceMs := 10 ^ 400 }

/-- A client whose one call fails. -/
abbrev failingClient : Client := { replies := [⟨[], some ⟨.runtime, "boom"⟩⟩] }

theorem tame_failingClient : failingClient.Tame := by
  refine ⟨(fun _ same => by cases same), fun reply member failure raised => ?_⟩
  cases List.mem_singleton.mp member
  cases raised
  decide

end Engine

end InlineCompletion
