import InlineCompletion.Proofs.Engine.Junctures
import InlineCompletion.Proofs.Engine.Waits

/-!
A client that does not interrupt. Where none of the failures that it may raise stops the loop, no task
ends with one that does, and the loop goes on in every run.
-/

namespace InlineCompletion

/-- A failure that the one who awaits it can deal with. -/
def Failure.Tame (failure : Failure) : Prop :=
  failure.kind ≠ .interrupt

instance : DecidablePred Failure.Tame :=
  fun failure => inferInstanceAs (Decidable (failure.kind ≠ .interrupt))

def Outcome.Tame (outcome : Outcome) : Prop :=
  ∀ failure, outcome = .failed failure → failure.Tame

def SourceAction.Tame (action : SourceAction) : Prop :=
  ∀ failure, action = .fail failure → failure.Tame

/-- What a source still does, also when it is closed. -/
structure Source.Tame (source : Source) : Prop where
  actions : ∀ action ∈ source.actions, action.Tame
  farewell : ∀ action ∈ source.farewell, action.Tame

def Reply.Tame (reply : Reply) : Prop :=
  ∀ failure, reply.failure = some failure → failure.Tame

/-- What a client raises by itself, and in its replies. -/
structure Client.Tame (client : Client) : Prop where
  failure : ∀ failure, client.failure = some failure → failure.Tame
  replies : ∀ reply ∈ client.replies, reply.Tame

/-- What a task keeps in mind that it may fail with. -/
def Phase.Tame : Phase → Prop
  | .answering reply => reply.Tame
  | .closing _ (.completion _ learnt) => learnt.Tame
  | _ => True

def Verdict.Tame : Verdict → Prop
  | .wait _ phase => phase.Tame
  | .done outcome => outcome.Tame

/-- A client whose failures change is tame if it was before and the new ones are. -/
def Move.Tame : Move → Prop
  | .script replies failure _ _ =>
    (∀ raised, failure = some raised → raised.Tame) ∧ ∀ reply ∈ replies, reply.Tame
  | .rescript _ actions farewell _ =>
    (∀ action ∈ actions, action.Tame) ∧ ∀ action ∈ farewell, action.Tame
  | _ => True

theorem Outcome.tame_value (v : Value) : (Outcome.value v).Tame :=
  nofun

theorem Outcome.tame_cancelled : Outcome.cancelled.Tame :=
  nofun

theorem Outcome.tame_failed {failure : Failure} (tame : failure.Tame) : (Outcome.failed failure).Tame := by
  intro other same
  cases same
  exact tame

/-! What a client yields. -/

namespace Client

variable {client : Client}

theorem Tame.of_manner {other : Client} (tame : client.Tame) (same : other.manner = client.manner) :
    other.Tame := by
  obtain ⟨replies, failure, -⟩ : other.replies = client.replies ∧ other.failure = client.failure ∧
      other.heedless = client.heedless ∧ other.gateOpen = client.gateOpen := by
    simpa [manner] using same
  exact ⟨failure ▸ tame.failure, replies ▸ tame.replies⟩

theorem Tame.nextReply (tame : client.Tame) : client.nextReply.Tame := by
  have last : (client.replies.getLastD ⟨[], none⟩).Tame := by
    cases same : client.replies.getLast? with
    | none =>
      rw [List.getLastD_eq_getLast?, same]
      nofun
    | some reply =>
      rw [List.getLastD_eq_getLast?, same]
      exact tame.replies reply (List.mem_of_getLast? same)
  unfold Client.nextReply
  cases found : client.replies[client.taken]? with
  | none => exact last
  | some reply => exact tame.replies reply (List.mem_of_getElem? found)

theorem Tame.pull (tame : client.Tame) {actions rest : List SourceAction} {outcome : Outcome}
    (actions_tame : ∀ action ∈ actions, action.Tame)
    (ended : client.pull actions = (.ended outcome, rest)) : outcome.Tame := by
  induction actions with
  | nil =>
    cases ended
    exact Outcome.tame_value _
  | cons action later ih =>
    have further := ih fun other member => actions_tame other (List.mem_cons_of_mem _ member)
    cases action with
    | passGate =>
      unfold Client.pull at ended
      split at ended
      · exact further ended
      · cases ended
    | checkFailure =>
      unfold Client.pull at ended
      split at ended
      · next failure raised =>
        cases ended
        exact Outcome.tame_failed (tame.failure failure raised)
      · exact further ended
    | piece t =>
      cases ended
      exact Outcome.tame_value _
    | fail failure =>
      cases ended
      exact Outcome.tame_failed (actions_tame _ (List.mem_cons_self ..) failure rfl)

end Client

theorem Reply.Tame.actions {reply : Reply} (tame : reply.Tame) : ∀ action ∈ reply.actions, action.Tame := by
  intro action member failure same
  subst same
  refine tame failure ?_
  simpa [Reply.actions] using member

namespace Source

variable {source other : Source}

theorem Tame.ebbs (tame : source.Tame) (ebbs : Ebbs source other) : other.Tame where
  actions := by
    rcases ebbs.rest with ⟨-, same⟩ | ⟨-, none⟩
    · rw [same]
      exact tame.actions
    · simp [none]
  farewell := fun action member => tame.farewell action (ebbs.farewell.subset member)

theorem Tame.farewell? {client : Client} (tame : source.Tame) (raises : client.Tame) {closing : Outcome}
    (ends : source.farewell? client = some closing) : closing.Tame := by
  unfold Source.farewell? at ends
  split at ends
  · cases ends
    exact Outcome.tame_value _
  · split at ends
    · next failure rest pulled =>
      cases ends
      exact raises.pull tame.farewell pulled
    · cases ends
      exact Outcome.tame_value _
    · cases ends

theorem Tame.closing? {client : Client} (tame : source.Tame) (raises : client.Tame) {closing : Outcome}
    (ends : source.closing? client = some closing) : closing.Tame := by
  unfold Source.closing? at ends
  split at ends
  · cases ends
    exact Outcome.tame_failed (by decide)
  · exact tame.farewell? raises ends

end Source

theorem Outcome.Tame.closed {reading closing : Outcome} (tame : reading.Tame) (ends : closing.Tame) :
    (reading.closed closing).Tame := by
  cases closing with
  | value v => exact tame
  | failed failure => exact ends
  | cancelled => exact ends

theorem tame_collected (pieces : List Text) {outcome : Outcome} (tame : outcome.Tame) :
    (Engine.collected pieces outcome).Tame := by
  unfold Engine.collected
  split
  · exact Outcome.tame_value _
  · exact tame

theorem Stream.tame_reading? {stream : Stream} {pieces : List Text} {outcome reading : Outcome}
    (tame : outcome.Tame) (reads : stream.reading? pieces outcome = some reading) : reading.Tame := by
  have aborted : (Outcome.failed streamAborted).Tame := Outcome.tame_failed (by decide)
  unfold Stream.reading? at reads
  split at reads
  · split at reads
    · cases reads
      exact aborted
    · split at reads
      · cases reads
        exact Outcome.tame_value _
      · cases reads
  · cases reads
    exact Outcome.tame_value _
  · cases reads
    exact Outcome.tame_value _
  · cases reads
    exact tame_collected pieces tame
  · cases reads
    split
    · exact aborted
    · exact Outcome.tame_cancelled

namespace Engine

variable {engine old new : Engine} {env : Environment} {run : Run} {touched : Nat → Prop} {task id : Nat}
  {activity : Activity Phase} {phase : Phase} {outcome : Outcome} {step : Step}

/-- Every source is tame. -/
def Wholesome (engine : Engine) : Prop :=
  ∀ (id : Nat) (stream : Stream), engine.streams[id]? = some stream → stream.source.Tame

/-- Nothing that anybody may fail with interrupts, and the loop goes on. -/
structure Tame (engine : Engine) : Prop where
  client : engine.client.Tame
  sources : engine.Wholesome
  outcomes : ∀ id failure, engine.loop.outcome? id = some (.failed failure) → failure.Tame
  phases : ∀ task activity, engine.loop.Unfinished task activity → activity.phase.Tame
  going : engine.interrupted = none

theorem Tame.incoming (tame : engine.Tame) (activity : Activity Phase) :
    (engine.incoming activity).Tame := by
  intro failure same
  unfold Engine.incoming at same
  split at same
  · cases same
  · cases waits : activity.waitingFor.bind engine.loop.outcome? with
    | none =>
      rw [waits] at same
      cases same
    | some found =>
      rw [waits] at same
      cases show found = .failed failure from same
      obtain ⟨target, -, ended⟩ := Option.bind_eq_some_iff.mp waits
      exact tame.outcomes target failure ended

/-- What the call of a completion comes to. -/
theorem Tame.called (tame : engine.Tame) (known : phase.Tame) (incoming : outcome.Tame) {called : Outcome}
    (ends : engine.called? phase outcome = some called) : called.Tame := by
  unfold called? at ends
  split at ends
  · cases ends
    split
    · exact Outcome.tame_failed (by decide)
    · exact incoming
  · obtain ⟨stream, there, ends⟩ := Option.bind_eq_some_iff.mp ends
    obtain ⟨reading, reads, ends⟩ := Option.bind_eq_some_iff.mp ends
    obtain ⟨closing, closes, rfl⟩ := Option.map_eq_some_iff.mp ends
    exact (Stream.tame_reading? incoming reads).closed
      ((tame.sources _ stream there).closing? tame.client closes)
  · obtain ⟨stream, there, ends⟩ := Option.bind_eq_some_iff.mp ends
    obtain ⟨closing, closes, rfl⟩ := Option.map_eq_some_iff.mp ends
    have source := tame.sources _ stream there
    refine Outcome.Tame.closed known ?_
    split at closes
    · exact source.farewell? tame.client closes
    · split at closes
      · exact source.farewell? tame.client closes
      · cases closes
        exact incoming
  · cases ends

theorem tame_read (known : phase.Tame) (incoming : outcome.Tame) {reading : Outcome}
    (reads : engine.read? phase outcome = some reading) : reading.Tame := by
  unfold read? at reads
  split at reads
  · obtain ⟨stream, there, reads⟩ := Option.bind_eq_some_iff.mp reads
    exact Stream.tame_reading? incoming reads
  · cases reads
    exact known
  · cases reads

/-! What a task leaves behind. -/

/-- Every source is tame, and the task waits or ends so that others can deal with it. -/
structure Tamed (step : Step) : Prop where
  sources : step.1.Wholesome
  verdict : step.2.Tame

theorem Wholesome.modifySource (wholesome : engine.Wholesome) (id : Nat) {f : Source → Source}
    (keeps : ∀ (stream : Stream), engine.streams[id]? = some stream → (f stream.source).Tame) :
    (engine.modifySource id f).Wholesome := by
  intro other stream known
  have there : (engine.streams.modify id fun s => { s with source := f s.source })[other]? = some stream :=
    known
  rw [getElem?_modify] at there
  split at there
  · next here =>
    subst here
    obtain ⟨before, known', rfl⟩ := Option.map_eq_some_iff.mp there
    exact keeps before known'
  · exact wholesome other stream there

theorem Wholesome.pullSource (wholesome : engine.Wholesome) (client : engine.client.Tame) (id : Nat) :
    Tamed (engine.pullSource id) := by
  unfold Engine.pullSource
  split
  · exact ⟨wholesome, Outcome.tame_value _⟩
  · next stream known =>
    have source := wholesome id stream known
    have left := engine.client.pull_suffix stream.source.actions
    have rest {actions : List SourceAction} (busy : Bool) (suffix : actions <:+ stream.source.actions) :
        (engine.modifySource id fun source => { source with actions, busy }).Wholesome := by
      refine wholesome.modifySource id fun other known' => ?_
      cases known.symm.trans known'
      exact ⟨fun action member => source.actions action (suffix.subset member), source.farewell⟩
    split
    · next outcome actions pulled =>
      rw [pulled] at left
      exact ⟨rest false left, client.pull source.actions pulled⟩
    · next actions pulled =>
      rw [pulled] at left
      exact ⟨rest true left, trivial⟩

theorem Wholesome.startPull (wholesome : engine.Wholesome) (client : engine.client.Tame) (id : Nat) :
    Tamed (engine.startPull id) := by
  unfold Engine.startPull
  split
  · exact ⟨wholesome, Outcome.tame_failed (by decide)⟩
  · unfold openSource
    split
    · exact wholesome.pullSource client id
    · next call _ =>
      have taken : (engine.takeReply call).2.Wholesome := wholesome
      have raises : (engine.takeReply call).2.client.Tame := client.of_manner rfl
      have opened : ((engine.takeReply call).2.modifySource id fun source =>
          { source with opening := none, actions := (engine.takeReply call).1.actions }).Wholesome :=
        taken.modifySource id fun stream known =>
          ⟨client.nextReply.actions, (wholesome id stream known).farewell⟩
      exact opened.pullSource raises id

theorem Wholesome.resumePull (wholesome : engine.Wholesome) (client : engine.client.Tame) (id : Nat)
    (incoming : outcome.Tame) : Tamed (engine.resumePull id outcome) := by
  unfold Engine.resumePull
  split
  · exact wholesome.pullSource client id
  · split
    · exact wholesome.pullSource client id
    · refine ⟨wholesome.modifySource id fun stream known => ⟨nofun, ?_⟩, incoming⟩
      exact (wholesome id stream known).farewell

theorem Wholesome.ebb (wholesome : old.Wholesome) (ebb : Ebb old new) : new.Wholesome := by
  intro id stream known
  by_cases inside : id < old.streams.length
  · obtain ⟨found, known', -, ebbs⟩ := ebb.streams id _ (List.getElem?_eq_getElem inside)
    cases known.symm.trans known'
    exact (wholesome id _ (List.getElem?_eq_getElem inside)).ebbs ebbs
  · obtain ⟨-, -, actions, farewell⟩ := ebb.fresh id stream known (Nat.le_of_not_lt inside)
    exact ⟨by simp [actions], by simp [farewell]⟩

theorem Wholesome.of_shells (wholesome : old.Wholesome) (id : Nat) {f : Stream → Stream}
    (source : ∀ stream, (f stream).source = stream.source) : (old.modifyStream id f).Wholesome := by
  intro other stream known
  have there : (old.streams.modify id f)[other]? = some stream := known
  rw [getElem?_modify] at there
  split at there
  · obtain ⟨before, known', rfl⟩ := Option.map_eq_some_iff.mp there
    exact source before ▸ wholesome other before known'
  · exact wholesome other stream there

theorem Wholesome.left {reads : Option Nat} (wholesome : old.Wholesome) (left : Left reads old step) :
    step.1.Wholesome := by
  cases left with
  | rests step ebbed => exact wholesome.ebb ebbed.ebb
  | reads middle stream run pieces found ebb =>
    have kept := wholesome.ebb ebb
    have spawned : (middle.spawn (.pull stream)).2.Wholesome := kept
    exact spawned.of_shells stream fun _ => rfl

theorem Wholesome.freed (wholesome : engine.Wholesome) (phase : Phase) : (engine.freed phase).Wholesome := by
  unfold Engine.freed
  split
  · exact wholesome.of_shells _ fun _ => rfl
  · exact wholesome

/-! How a task ends. -/

theorem tame_answer {client : Client} {reply : Reply} (raises : client.Tame) (tame : reply.Tame) :
    (answerOutcome client reply).Tame := by
  unfold answerOutcome
  split
  · next failure raised => exact Outcome.tame_failed (raises.failure failure raised)
  · unfold Reply.whole
    cases failed : reply.failure with
    | some failure => exact Outcome.tame_failed (tame failure failed)
    | none => exact Outcome.tame_value _

theorem tame_afterCall (env : Environment) (run : Run) (engine : Engine) (tame : outcome.Tame) :
    (engine.afterCall env run outcome).2.Tame := by
  cases outcome with
  | cancelled => exact Outcome.tame_cancelled
  | failed failure =>
    unfold afterCall
    dsimp only
    split
    · exact tame
    · split <;> exact Outcome.tame_value _
  | value v =>
    unfold afterCall
    dsimp only
    split
    · unfold acceptReply
      split
      · exact Outcome.tame_value _
      · dsimp only
        split <;> exact Outcome.tame_value _
    · exact Outcome.tame_value _

theorem Decides.tame {answer : Outcome} (decides : Decides env run old answer step) (tame : answer.Tame) :
    step.2.Tame := by
  cases decides with
  | asks o call new target phase passed live found selected silent outset =>
    cases outset <;> trivial
  | unselected => exact Outcome.tame_value _
  | stops result same =>
    rcases same with ⟨rfl, -⟩ | rfl
    · exact tame
    · exact Outcome.tame_value _

theorem Tame.debounced (tame : engine.Tame) {answer : Outcome}
    (answered : engine.debounced? phase outcome = some answer) : answer.Tame := by
  unfold debounced? at answered
  split at answered
  · split at answered
    · cases answered
      unfold watchOutcome
      split
      · exact Outcome.tame_value _
      · next found _ ended =>
        intro failure same
        subst same
        exact tame.outcomes _ failure ended
      · exact Outcome.tame_cancelled
    · cases answered
  · cases answered
    split
    · exact Outcome.tame_cancelled
    · exact Outcome.tame_value _
  · cases answered

theorem Weighs.tame {answered : Option Outcome} (weighs : Weighs env run old answered step)
    (answers : ∀ answer, answered = some answer → answer.Tame) : step.2.Tame := by
  cases weighs with
  | waits => trivial
  | decides answer step decides => exact decides.tame (answers answer rfl)

theorem Receives.tame {read called : Option Outcome} (receives : Receives env run old read called step)
    (reads : ∀ reading, read = some reading → reading.Tame) (calls : ∀ ended, called = some ended → ended.Tame) :
    step.2.Tame := by
  cases receives with
  | waits new target phase silent works keeps =>
    cases phase with
    | closing id closer =>
      cases closer with
      | outside => cases works
      | completion other reading =>
        cases works
        exact reads reading (keeps id reading rfl)
    | answering => cases works
    | _ => trivial
  | ended new outcome silent => exact tame_afterCall env run new (calls outcome rfl)

theorem Enters.tame {settings : Settings} {cache : Cache Float} (enters : Enters env run settings cache old step) :
    step.2.Tame := by
  cases enters with
  | hit => exact Outcome.tame_value _
  | overflows => exact Outcome.tame_failed (by decide)
  | waits => trivial
  | decides missed fits undelayed step decides => exact decides.tame (Outcome.tame_value _)

/-! One turn. -/

theorem tame_complete (env : Environment) {running : Option (Nat × Outcome)}
    (coherent : engine.Coherent touched running) (orchestrator : Nat) (document : Document)
    (position : Position) : (engine.startCompletion env orchestrator document position).2.Tame := by
  cases found : engine.orchestrators[orchestrator]? with
  | some o => exact (enters_startCompletion env coherent found document position).tame
  | none =>
    have nowhere : (engine.beginRequest orchestrator).2.orchestrators[orchestrator]? = none := by
      rw [(beginRequest_of_none coherent found).2.1, found]
    unfold startCompletion
    simp only [nowhere]
    exact Outcome.tame_value _

theorem Tame.wakeFirst (tame : engine.Tame) (rest : List Handle)
    (known : engine.loop.Unfinished task activity) :
    ({ engine with loop := engine.loop.wakeFirst rest task activity.phase } : Engine).Tame where
  client := tame.client
  sources := tame.sources
  outcomes := fun id failure failed =>
    tame.outcomes id failure ((Loop.outcome?_wakeFirst ..).symm.trans failed)
  phases := fun other found unfinished => by
    rcases (Loop.unfinished_wakeFirst rest known activity.phase other found).mp unfinished with
      ⟨rfl, rfl⟩ | ⟨-, unfinished⟩
    · exact tame.phases other activity known
    · exact tame.phases other found unfinished
  going := tame.going

/-- However a task goes on that reads no piece, it waits or ends so that others can deal with it. -/
theorem Tame.verdict (env : Environment) (coherent : engine.Coherent touched none) (tame : engine.Tame)
    {rest : List Handle} (first : engine.loop.ready = .wake task :: rest)
    (known : engine.loop.Unfinished task activity) (idle : activity.phase.pulls? = none) :
    (({ engine with loop := engine.loop.wakeFirst rest task activity.phase } : Engine).resume env
      activity.phase (engine.incoming activity)).2.Tame := by
  have woken := coherent.wake first known
  have awake := tame.wakeFirst rest known
  have incoming := tame.incoming activity
  have minds := tame.phases task activity known
  have fits := coherent.fits task activity known nofun
  generalize engine.loop.wakeFirst rest task activity.phase = loop at woken awake ⊢
  generalize engine.incoming activity = outcome at incoming woken ⊢
  have there (id : Nat) (member : .stream id ∈ activity.phase.belongings) :
      ∃ stream, ({ engine with loop } : Engine).streams[id]? = some stream := fits.there member
  have asked {run : Run} (works : activity.phase.run? = some run) (asked : activity.phase.asked = true) :
      (({ engine with loop } : Engine).resume env activity.phase outcome).2.Tame :=
    (receives_resume env works asked there outcome).tame (fun _ => tame_read minds incoming)
      fun _ => awake.called minds incoming
  have unasked {run : Run} (works : activity.phase.run? = some run) (unasked : activity.phase.asked = false) :
      (({ engine with loop } : Engine).resume env activity.phase outcome).2.Tame :=
    (weighs_resume env works unasked outcome).tame fun _ => awake.debounced
  cases fits with
  | start job phase internal =>
    rw [phase] at idle ⊢
    cases outcome with
    | failed failure => exact incoming
    | cancelled => exact Outcome.tame_cancelled
    | value v =>
      cases job with
      | watch request =>
        show (startWatch _ request).2.Tame
        unfold startWatch
        split
        · exact Outcome.tame_value _
        · trivial
      | answer call =>
        show (startAnswer _ call).2.Tame
        unfold startAnswer
        dsimp only
        split
        · exact tame_answer (awake.client.of_manner rfl) awake.client.nextReply
        · exact awake.client.nextReply
      | pull id => cases idle
      | complete orchestrator document position => exact tame_complete env woken orchestrator document position
      | debounce | chat | next | collect | close => exact internal.elim
  | watching phase =>
    rw [phase]
    cases outcome with
    | value v => exact Outcome.tame_value _
    | failed failure => exact incoming
    | cancelled => exact Outcome.tame_cancelled
  | answering reply phase =>
    rw [phase] at minds ⊢
    show (resumeAnswer _ reply outcome).2.Tame
    unfold resumeAnswer
    split
    · exact tame_answer awake.client minds
    · split
      · exact incoming
      · split
        · exact tame_answer awake.client minds
        · exact minds
  | pulling id phase =>
    rw [phase] at idle
    cases idle
  | debouncing watch run phase => exact unasked (by rw [phase]; rfl) (by rw [phase]; rfl)
  | unwinding watch timedOut run phase => exact unasked (by rw [phase]; rfl) (by rw [phase]; rfl)
  | calling call run phase => exact asked (by rw [phase]; rfl) (by rw [phase]; rfl)
  | reading stream read run pieces found phase => exact asked (by rw [phase]; rfl) (by rw [phase]; rfl)
  | closing stream run outcome found phase => exact asked (by rw [phase]; rfl) (by rw [phase]; rfl)

/-- Whatever a task does, it leaves others with what they can deal with. -/
theorem Tame.tamed (env : Environment) (coherent : engine.Coherent touched none) (manned : engine.Manned)
    (tame : engine.Tame) {rest : List Handle} (first : engine.loop.ready = .wake task :: rest)
    (known : engine.loop.Unfinished task activity) :
    Tamed (({ engine with loop := engine.loop.wakeFirst rest task activity.phase } : Engine).resume env
      activity.phase (engine.incoming activity)) := by
  have awake := tame.wakeFirst rest known
  have incoming := tame.incoming activity
  cases pulls : activity.phase.pulls? with
  | none =>
    have flow := flow_resume env coherent manned known
      (show ({ engine with loop := engine.loop.wakeFirst rest task activity.phase } : Engine).streams =
        engine.streams from rfl) (engine.incoming activity)
    refine ⟨?_, tame.verdict env coherent first known pulls⟩
    cases flow with
    | leaves idle left => exact (awake.sources.freed activity.phase).left left
    | draws id stream pulls' => cases pulls.symm.trans pulls'
  | some id =>
    generalize engine.loop.wakeFirst rest task activity.phase = loop at awake ⊢
    generalize engine.incoming activity = outcome at incoming ⊢
    generalize activity.phase = phase at pulls ⊢
    unfold Phase.pulls? at pulls
    split at pulls
    · cases pulls
      cases outcome with
      | value v => exact awake.sources.startPull awake.client id
      | failed failure => exact ⟨awake.sources, incoming⟩
      | cancelled => exact ⟨awake.sources, Outcome.tame_cancelled⟩
    · cases pulls
      exact awake.sources.resumePull awake.client id incoming
    · cases pulls

theorem Played.interrupted (played : Played env run old step) : step.1.interrupted = old.interrupted := by
  have along {new : Engine} (deeds : Deeds env run old new) : new.interrupted = old.interrupted := by
    induction deeds with
    | refl => rfl
    | tail _ deed ih =>
      refine Eq.trans ?_ ih
      cases deed with
      | aside silent => exact silent.interrupted
      | enters | notifies | asks => rfl
      | consults =>
        unfold lookUp
        split <;> rfl
      | stores =>
        unfold store
        split <;> rfl
  cases played with
  | waits new target phase deeds => exact along deeds
  | ends new result deeds =>
    refine Eq.trans ?_ (along deeds)
    unfold endRun
    dsimp only
    split <;> rfl

theorem Resumed.interrupted (resumed : Resumed env old phase outcome step) {running : Option (Nat × Outcome)}
    (coherent : old.Coherent touched running) : step.1.interrupted = old.interrupted := by
  have begun (orchestrator : Nat) : (old.beginRequest orchestrator).2.interrupted = old.interrupted :=
    (retires_cancelCurrent coherent orchestrator).interrupted
  cases resumed with
  | plays run works played => exact played.interrupted
  | begins orchestrator o run starts wanted found mine newest succeeds opened =>
    exact (opened.played (succeeds.isLive found mine newest)).interrupted.trans (begun orchestrator)
  | absent orchestrator starts wanted nowhere same =>
    rw [same]
    exact begun orchestrator
  | assists idle unstarted assists => exact assists.aside.interrupted

/-- The verdict of a task that has run does not stop the loop. -/
theorem Tamed.conclude (tamed : Tamed step) (client : step.1.client.Tame)
    (outcomes : ∀ id failure, step.1.loop.outcome? id = some (.failed failure) → failure.Tame)
    (phases : ∀ task activity, step.1.loop.Unfinished task activity → activity.phase.Tame)
    (going : step.1.interrupted = none) (known : step.1.loop.Unfinished task activity) :
    (Engine.conclude task step).Tame := by
  obtain ⟨streams, client'⟩ := conclude_client task step
  refine ⟨client' ▸ client, fun id stream there => ?_, fun id failure failed => ?_,
    fun other found unfinished => ?_, ?_⟩
  · exact tamed.sources id stream (streams ▸ there)
  · obtain ⟨new, verdict⟩ := step
    cases verdict with
    | wait target phase => exact outcomes id failure ((Loop.outcome?_park task phase target id).symm.trans failed)
    | done result =>
      rw [loop_conclude_done, Loop.outcome?_settle] at failed
      split at failed
      · cases failed
        exact tamed.verdict failure rfl
      · exact outcomes id failure failed
  · by_cases here : other = task
    · subst here
      obtain ⟨target, waits⟩ := phase_conclude known unfinished
      have verdict := tamed.verdict
      rw [waits] at verdict
      exact verdict
    · exact phases other found ((unfinished_conclude known here found).mp unfinished)
  · obtain ⟨new, verdict⟩ := step
    cases verdict with
    | wait target phase => exact going
    | done result =>
      unfold Engine.conclude
      dsimp only
      split
      · next failure =>
        rw [if_neg (tamed.verdict failure rfl)]
        exact going
      · exact going

theorem Tame.turn (env : Environment) (coherent : engine.Coherent touched none) (manned : engine.Manned)
    (tame : engine.Tame) : (engine.apply env .turn).Tame := by
  have turned : Turned env engine (engine.apply env .turn) := turned_turn env coherent
  generalize engine.apply env .turn = next at turned
  cases turned with
  | idle => exact tame
  | released waiter rest going first =>
    refine ⟨tame.client, tame.sources, fun id failure failed => ?_, fun other found unfinished => ?_, tame.going⟩
    · have failed : (({ engine.loop with ready := rest } : Loop Phase).settle waiter
        (.value .nothing)).outcome? id = some (.failed failure) := failed
      rw [Loop.outcome?_settle] at failed
      split at failed
      · cases failed
      · exact tame.outcomes id failure failed
    · exact tame.phases other found ((unfinished_release coherent first other found).mp unfinished)
  | woken task rest activity awake going first known same =>
    subst same
    have woken := tame.wakeFirst rest known
    have runs := (Loop.unfinished_wakeFirst rest known activity.phase task _).mpr (Or.inl ⟨rfl, rfl⟩)
    have resumed := resumed_resume env coherent first known
    have steady := resumed.steady (coherent.wake first known)
    have flow := flow_resume env coherent manned known
      (show ({ engine with loop := engine.loop.wakeFirst rest task activity.phase } : Engine).streams =
        engine.streams from rfl) (engine.incoming activity)
    obtain ⟨runner, runs', -⟩ := steady.after task _ runs
    refine (tame.tamed env coherent manned first known).conclude (woken.client.of_manner flow.manner)
      (fun id failure failed => woken.outcomes id failure (steady.failed id failure failed))
      (fun other found unfinished => ?_) ((resumed.interrupted (coherent.wake first known)).trans going) runs'
    rcases steady.before other found unfinished with ⟨before, known', phase, -⟩ | ⟨-, -, job, start, -⟩
    · exact phase ▸ woken.phases other before known'
    · rw [start]
      trivial

/-! A whole run. -/

/-- Nobody fails by a move but the task that runs in a turn. -/
theorem Moved.failed {move : Move} (moved : Moved env engine move new) (waits : move ≠ .turn)
    {failure : Failure} (failed : new.loop.outcome? id = some (.failed failure)) :
    engine.loop.outcome? id = some (.failed failure) := by
  cases moved with
  | turned => exact absurd rfl waits
  | requested orchestrator document position => exact (Loop.outcome?_spawn engine.loop _ id).symm.trans failed
  | cancelled orchestrator next retires => exact retires.steady.failed id failure failed
  | selected => exact failed
  | cleared orchestrator notify =>
    unfold clearCacheFor at failed
    dsimp only at failed
    split at failed <;> exact failed
  | aside move next silent => exact silent.steady.failed id failure failed

theorem Moved.going {move : Move} (moved : Moved env engine move new) (waits : move ≠ .turn) :
    new.interrupted = engine.interrupted := by
  cases moved with
  | turned => exact absurd rfl waits
  | requested | selected => rfl
  | cancelled orchestrator next retires => exact retires.interrupted
  | cleared orchestrator notify =>
    unfold clearCacheFor
    dsimp only
    split <;> rfl
  | aside move next silent => exact silent.interrupted

theorem Tame.apply (env : Environment) (coherent : engine.Coherent touched none) (manned : engine.Manned)
    (tame : engine.Tame) {move : Move} (moves : move.Tame) : (engine.apply env move).Tame := by
  by_cases turns : move = .turn
  · subst turns
    exact tame.turn env coherent manned
  have moved := moved_apply env coherent move
  suffices kept : (engine.apply env move).client.Tame ∧ (engine.apply env move).Wholesome by
    refine ⟨kept.1, kept.2, fun id failure failed => ?_, fun task activity known => ?_, ?_⟩
    · exact tame.outcomes id failure (moved.failed turns failed)
    · rcases moved.before coherent known fun turned => absurd turned turns with
        ⟨found, known', phase, -⟩ | ⟨-, job, start⟩
      · exact phase ▸ tame.phases task found known'
      · rw [start]
        trivial
    · exact (moved.going turns).trans tame.going
  have ebbs (ebb : Ebb engine (engine.apply env move)) :
      (engine.apply env move).client.Tame ∧ (engine.apply env move).Wholesome :=
    ⟨tame.client.of_manner ebb.manner, tame.sources.ebb ebb⟩
  cases move with
  | turn => exact absurd rfl turns
  | openGate | closeGate => exact ⟨⟨tame.client.failure, tame.client.replies⟩, tame.sources⟩
  | script replies failure ignoresCancel heedless => exact ⟨⟨moves.1, moves.2⟩, tame.sources⟩
  | rescript stream actions farewell closable =>
    exact ⟨tame.client, tame.sources.modifySource stream fun _ _ => ⟨moves.1, moves.2⟩⟩
  | _ => exact ebbs (ebb_apply env engine nofun ⟨nofun, nofun⟩ nofun nofun)

theorem tame_opening {client : Client} (tame : client.Tame) (seats : List (Settings × Cache Float)) :
    (opening client seats).Tame where
  client := ⟨tame.failure, tame.replies⟩
  sources := fun id stream known => by cases known
  outcomes := fun id failure failed => by cases failed
  phases := fun task activity unfinished => by cases unfinished.1
  going := rfl

theorem Tame.play (env : Environment) (coherent : engine.Coherent (fun _ => True) none)
    (manned : engine.Manned) (tame : engine.Tame) {moves : List Move}
    (harmless : ∀ move ∈ moves, move.Tame) : (engine.play env moves).Tame := by
  induction moves generalizing engine with
  | nil => exact tame
  | cons move rest ih =>
    refine ih (coherent.apply env move fun _ _ => trivial) (manned.apply env coherent move)
      (tame.apply env coherent manned (harmless move (List.mem_cons_self ..)))
      fun other member => harmless other (List.mem_cons_of_mem _ member)

/-- A loop whose client never interrupts goes on in every run. -/
theorem tame_play (env : Environment) {client : Client} (tame : client.Tame)
    (seats : List (Settings × Cache Float)) {moves : List Move} (harmless : ∀ move ∈ moves, move.Tame) :
    (reached env client seats moves).Tame :=
  (tame_opening tame seats).play env (coherent_opening client seats) (manned_play env client seats []) harmless

end Engine

end InlineCompletion
