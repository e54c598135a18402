import InlineCompletion.Cache.Key
import InlineCompletion.Cache.Reuse
import InlineCompletion.Engine.Call
import InlineCompletion.Engine.Debounce
import InlineCompletion.Prompt.Preview
import InlineCompletion.Reply.Cleaning
import InlineCompletion.Reply.Overlap

/-!
Completion requests. A new request cancels the one before it; what a request produces after that is
dropped. The cache is asked first, and only a miss waits and calls the model.
-/

namespace InlineCompletion

namespace Run

variable (run : Run)

def typed : Text :=
  run.document.before run.position

def existing (settings : Settings) : List Text :=
  if run.facts.inObjectLiteral then
    Property.existing run.document run.position settings.scanWindow
  else []

/-- The completion as it is inserted. -/
def insertion (completion : Text) : Value :=
  match Overlap.unique completion run.typed run.facts with
  | none => .nothing
  | some text => .text text

end Run

/-- What a prompt asks the model that is selected. -/
def callFor (settings : Settings) (model : Text) (prompt : Prompt) : Call where
  streamed := settings.stream
  messages := [⟨.user, prompt.render⟩]
  model := some model
  system := some systemPrompt
  maxTokens := .int settings.maxTokens
  temperature := .real settings.temperature

namespace Engine

variable (engine : Engine)

def setStage (orchestrator : Nat) (stage : Stage) : Engine :=
  engine.modifyOrchestrator orchestrator fun o => { o with stage }

def isCurrent (run : Run) : Bool :=
  engine.orchestrators[run.orchestrator]?.any fun o => o.current = some run.request

/-- Whether the request may still produce a completion. -/
def isLive (run : Run) : Bool :=
  engine.isCurrent run && !engine.isCancelled run.request

/-- Cancels the live request of an orchestrator. -/
def cancelCurrent (orchestrator : Nat) : Engine :=
  let current := engine.orchestrators[orchestrator]?.bind (·.current)
  let counted := engine.modifyOrchestrator orchestrator fun o =>
    { o with generation := o.generation + 1 }
  let stopped :=
    match current with
    | none => counted
    | some request => counted.cancelRequest request
  stopped.modifyOrchestrator orchestrator fun o => { o with current := none, stage := .idle }

/-- A new request, which replaces the live one. -/
def beginRequest (orchestrator : Nat) : Nat × Engine :=
  let engine := engine.cancelCurrent orchestrator
  let generation := (engine.orchestrators[orchestrator]?.map (·.generation)).getD 0
  let (request, engine) := engine.addRequest { generation }
  (request, engine.modifyOrchestrator orchestrator fun o => { o with current := some request })

/-- The request ends: a live one leaves its orchestrator done. -/
def endRun (run : Run) (outcome : Outcome) : Step :=
  (if engine.isLive run then
      engine.modifyOrchestrator run.orchestrator fun o => { o with current := none, stage := .done }
    else engine,
    .done outcome)

/-- Keeps a completion in the cache, if the request has a key. -/
def store (env : Environment) (run : Run) (completion : Text) : Engine :=
  match run.key with
  | none => engine
  | some key =>
    (engine.emit (.stored run.orchestrator run.request key)).modifyOrchestrator run.orchestrator
      fun o => { o with cache := o.cache.put key (env.clock engine.loop.now) completion run.typed }

/-- Makes use of a reply that arrived in time. -/
def acceptReply (env : Environment) (run : Run) (raw : Text) : Step :=
  match engine.orchestrators[run.orchestrator]? with
  | none => engine.endRun run (.value .nothing)
  | some o =>
    let cleaned := Reply.clean raw run.facts run.typed (run.existing o.settings)
    if cleaned.isEmpty then engine.endRun run (.value .nothing)
    else (engine.store env run cleaned).endRun run (.value (run.insertion cleaned))

/-- The call of a request has ended. Its failure is reported unless it was stopped on purpose. -/
def afterCall (env : Environment) (run : Run) : Outcome → Step
  | .cancelled => engine.endRun run .cancelled
  | .failed failure =>
    if failure.kind = .interrupt then engine.endRun run (.failed failure)
    else if failure.kind = .aborted || !engine.isLive run then engine.endRun run (.value .nothing)
    else (engine.notify (.failed failure)).endRun run (.value .nothing)
  | .value v =>
    match v, engine.isLive run with
    | .text raw, true => engine.acceptReply env run raw
    | _, _ => engine.endRun run (.value .nothing)

/-- A stream is closed. What went wrong then takes the place of what its reading came to. -/
def afterClosing (env : Environment) : Closer → Outcome → Step
  | .outside, closing => (engine, .done closing)
  | .completion run outcome, .value _ => engine.afterCall env run outcome
  | .completion run _, closing => engine.afterCall env run closing

/-- The answer of a farewell goes to the one who closes the stream. -/
def deliverFarewell (env : Environment) (stream : Nat) (closer : Closer) :
    Option Outcome × Engine → Step
  | (none, engine) => engine.awaitGate (.closing stream closer)
  | (some closing, engine) => engine.afterClosing env closer closing

/-- Closes a stream for someone. -/
def closeFor (env : Environment) (stream : Nat) (closer : Closer) : Step :=
  match engine.closeStream stream with
  | (none, engine) => deliverFarewell env stream closer (engine.bidFarewell stream)
  | (some failure, engine) => engine.afterClosing env closer (.failed failure)

/-- The stream of a request has been read to its end. It is closed whatever came of it. -/
def afterStream (env : Environment) (run : Run) (stream : Nat) (outcome : Outcome) : Step :=
  engine.closeFor env stream (.completion run outcome)

/-- Reads the next piece for a request. -/
def readFor (env : Environment) (run : Run) (stream : Nat) (pieces : List Text) : Step :=
  match engine.beginRead stream with
  | (.ok read, engine) => (engine, .wait read (.reading stream (.completion run pieces)))
  | (.error failure, engine) =>
    engine.afterStream env run stream (collected pieces (.failed failure))

/-- Asks the client. -/
def generate (env : Environment) (run : Run) (call : Call) : Step :=
  let asked := engine.emit (.asked run.request engine.loop.now call)
  if call.streamed then
    let (stream, engine) := asked.openStream call
    (engine.attachStream run.request stream).readFor env run stream []
  else
    let (id, engine) := asked.beginCall call
    (engine.attachCall run.request id, .wait id (.calling id (some run)))

/-- The wait before the call is over. -/
def afterDebounce (env : Environment) (run : Run) (outcome : Outcome) : Step :=
  match outcome, engine.isLive run, engine.orchestrators[run.orchestrator]? with
  | .value (.truth true), true, some o =>
    if o.model.isEmpty then (engine.notify .noModel).endRun run (.value .nothing)
    else
      let prompt := Prompt.ofPlace o.settings run.facts run.document run.position
      (engine.setStage run.orchestrator .generating).generate env run
        (callFor o.settings o.model prompt)
  | .value _, _, _ => engine.endRun run (.value .nothing)
  | outcome, _, _ => engine.endRun run outcome

/-- The answer of a debounce goes to the one who waited for it. -/
def deliver (env : Environment) (owner : Option Run) : Engine × Debounced → Step
  | (engine, .waiting target phase) => (engine, .wait target phase)
  | (engine, .ended outcome) =>
    match owner with
    | none => (engine, .done outcome)
    | some run => engine.afterDebounce env run outcome

def nanosecondsPerMillisecond : Nat := 1000000

/-- Waits out the delay and goes on. A delay whose seconds are no number fails at once. -/
def awaitDebounce (env : Environment) (run : Run) (settings : Settings) : Step :=
  let waiting := engine.setStage run.orchestrator .debouncing
  if settings.debounceOverflows then waiting.endRun run (.failed Settings.delayOverflow)
  else
    deliver env (some run)
      (waiting.startDebounce run.request
        (settings.debounceMs.toNat * nanosecondsPerMillisecond) (some run))

/-- The entry of the cache that answers the request, if it has a key. -/
def lookUp (env : Environment) (run : Run) (cache : Cache Float) :
    Option (CacheEntry Float) × Engine :=
  match run.key with
  | none => (none, engine)
  | some key =>
    let (found, cache) := cache.get key (env.clock engine.loop.now)
    (found.filter fun entry => !Reuse.isUnsafe entry run.document run.position run.facts,
      (engine.emit (.consulted run.orchestrator run.request key)).modifyOrchestrator
        run.orchestrator fun o => { o with cache })

/-- Answers a request: from the cache at once, or else from the model after the debounce. -/
def startCompletion (env : Environment) (orchestrator : Nat) (document : Document)
    (position : Position) : Step :=
  let (request, engine) := engine.beginRequest orchestrator
  match engine.orchestrators[orchestrator]? with
  | none => (engine, .done (.value .nothing))
  | some o =>
    let facts := classify document position o.settings.scanWindow
    let key := (CacheKey.derive env.digest document position facts CacheKey.defaultWindow).toOption
    let run : Run := { orchestrator, request, document, position, facts, key }
    match engine.lookUp env run o.cache with
    | (some entry, engine) =>
      (engine.setStage orchestrator .cacheHit).endRun run (.value (run.insertion entry.completion))
    | (none, engine) => engine.awaitDebounce env run o.settings

end Engine

end InlineCompletion
