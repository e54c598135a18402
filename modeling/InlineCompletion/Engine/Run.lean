import InlineCompletion.Engine.Completion

/-!
Running the tasks of the engine, and what may be done to it from outside between two turns.
-/

namespace InlineCompletion.Engine

variable (engine : Engine)

/-- Begins a job. -/
def start (env : Environment) : Job → Step
  | .watch request => engine.startWatch request
  | .debounce request delay => deliver env none (engine.startDebounce request delay none)
  | .answer call => engine.startAnswer call
  | .pull stream => engine.startPull stream
  | .chat call => engine.startChat call
  | .next stream => engine.startNext stream
  | .collect stream => engine.startCollect stream []
  | .close stream => engine.closeFor env stream .outside
  | .complete orchestrator document position =>
    engine.startCompletion env orchestrator document position

/-- A reader goes on with what it read. -/
def resumeReading (env : Environment) (stream : Nat) (consumer : Consumer) (outcome : Outcome) :
    Step :=
  let (seen, engine) := engine.endRead stream outcome
  match consumer, seen with
  | .next, _ => (engine, .done seen)
  | .collect pieces, .value (.text t) => engine.startCollect stream (pieces ++ [t])
  | .collect pieces, _ => (engine, .done (collected pieces seen))
  | .completion run pieces, .value (.text t) => engine.readFor env run stream (pieces ++ [t])
  | .completion run pieces, _ => engine.afterStream env run stream (collected pieces seen)

/-- A task goes on from its phase with the outcome of what it waited for. A job that is cancelled
before it starts does nothing. -/
def resume (env : Environment) : Phase → Outcome → Step
  | .start job, .value _ => engine.start env job
  | .start _, outcome => (engine, .done outcome)
  | .watching, .value _ => (engine, .done (.value (.truth true)))
  | .watching, outcome => (engine, .done outcome)
  | .debouncing watch owner, outcome =>
    deliver env owner (engine.resumeDebounce watch owner outcome)
  | .unwinding watch timedOut owner, outcome =>
    deliver env owner (engine.resumeUnwinding watch timedOut outcome)
  | .answering reply, outcome => engine.resumeAnswer reply outcome
  | .pulling stream, outcome => engine.resumePull stream outcome
  | .calling call owner, outcome =>
    let (seen, engine) := engine.endCall call outcome
    match owner with
    | none => (engine, .done seen)
    | some run => engine.afterCall env run seen
  | .reading stream consumer, outcome => engine.resumeReading env stream consumer outcome
  | .closing stream closer, outcome =>
    deliverFarewell env stream closer (engine.resumeFarewell stream outcome)

/-- What a task goes on with: a requested cancellation comes before the outcome it waited for. -/
def incoming (activity : Activity Phase) : Outcome :=
  if activity.cancelRequested then .cancelled
  else (activity.waitingFor.bind engine.loop.outcome?).getD (.value .nothing)

/-- Parks or ends the task that has just run. An interruption stops the loop. -/
def conclude (task : Nat) : Step → Engine
  | (engine, .wait target phase) => engine.withLoop (·.park task phase target)
  | (engine, .done outcome) =>
    let engine := engine.withLoop (·.settle task outcome)
    match outcome with
    | .failed failure =>
      if failure.kind = .interrupt then { engine with interrupted := some failure } else engine
    | _ => engine

def runTask (env : Environment) (task : Nat) : Engine :=
  match engine.loop.futures[task]? with
  | some { outcome := none, activity := some activity, .. } =>
    let outcome := engine.incoming activity
    let awake := engine.withLoop (·.setActivity task { phase := activity.phase })
    conclude task (awake.resume env activity.phase outcome)
  | _ => engine

def handle (env : Environment) : Handle → Engine
  | .wake task => engine.runTask env task
  | .release waiter => engine.withLoop (·.settle waiter (.value .nothing))

/-- One turn of the loop; none when nothing can run. -/
def turn? (env : Environment) : Option Engine :=
  if engine.interrupted.isSome then none
  else engine.loop.next?.map fun next => ({ engine with loop := next.2 } : Engine).handle env next.1

def runTurns (env : Environment) : Nat → Engine → Engine
  | 0, engine => engine
  | fuel + 1, engine =>
    match engine.turn? env with
    | none => engine
    | some next => runTurns env fuel next

/-- Runs until no task can run, for at most `fuel` turns. -/
def settle (env : Environment) (fuel : Nat) : Engine :=
  runTurns env fuel (engine.withLoop (·.fireTimers))

/-! From outside. -/

def advance (milliseconds : Nat) : Engine :=
  engine.withLoop (·.advance (milliseconds * nanosecondsPerMillisecond))

/-- Opens the gate of the client for those who wait there. -/
def openGate : Engine :=
  let waiters := engine.client.gateWaiters
  (engine.withClient fun c => { c with gateOpen := true, gateWaiters := [] }).withLoop fun loop =>
    waiters.foldl (fun l waiter => l.settle waiter (.value .nothing)) loop

def closeGate : Engine :=
  engine.withClient fun c => { c with gateOpen := false }

def setFailure (failure : Option Failure) : Engine :=
  engine.withClient fun c => { c with failure }

def cancelTask (task : Nat) : Engine :=
  engine.withLoop (·.cancel task)

def clearCache (orchestrator : Nat) : Engine :=
  engine.modifyOrchestrator orchestrator fun o => { o with cache := o.cache.clear }

/-- Selects a model. Completions of the one before are dropped. -/
def selectModel (orchestrator : Nat) (model : Text) : Engine :=
  (engine.modifyOrchestrator orchestrator fun o => { o with model := Text.trim model }).clearCache
    orchestrator

/-- Empties the cache for the user, and says so if asked to. -/
def clearCacheFor (orchestrator : Nat) (notify : Bool) : Engine :=
  let cleared := engine.clearCache orchestrator
  if notify then cleared.notify .cacheCleared else cleared

/-- Whether a command did its work, and what the user was told. -/
structure CommandResult where
  success : Bool
  notice : Notice
  deriving DecidableEq, Repr

/-- The command that empties the cache. -/
def clearCommand (orchestrator : Option Nat) : CommandResult × Engine :=
  match orchestrator with
  | none => (⟨false, .notInitialized⟩, engine.notify .notInitialized)
  | some id => (⟨true, .cacheCleared⟩, (engine.clearCache id).notify .cacheCleared)

end InlineCompletion.Engine

/-!
One completion on its own: a fresh orchestrator, no debounce, and the loop run to the end.
-/

namespace InlineCompletion

/-- What came of it, and the engine afterwards. -/
structure Completed where
  /-- The completion if there is one; otherwise what interrupted the program. -/
  outcome : Except Failure (Option Text)
  engine : Engine

namespace Engine

/-- Turns that are enough for any document: a reply is read in at most five per fragment. -/
def enoughTurns (client : Client) : Nat :=
  64 + 8 * ((client.replies.flatMap Reply.fragments).length + client.replies.length)

/-- Completes a document once. -/
def completeOnce (env : Environment) (settings : Settings) (client : Client)
    (document : Document) (position : Position) : Except Failure Completed := do
  let orchestrator ← Orchestrator.ofSettings { settings with debounceMs := 0 }
  let engine : Engine := { client, orchestrators := [orchestrator] }
  let (task, engine) := engine.spawn (.complete 0 document position)
  let engine := engine.settle env (enoughTurns client)
  match engine.interrupted, engine.loop.outcome? task with
  | some failure, _ => return ⟨.error failure, engine⟩
  | none, some (.value (.text text)) => return ⟨.ok (some text), engine⟩
  | none, _ => return ⟨.ok none, engine⟩

/-- What the user was told, in order. -/
def notices (engine : Engine) : List Notice :=
  engine.events.filterMap fun event =>
    match event with
    | .notified notice => some notice
    | _ => none

/-- The calls that the client worked on, in order. -/
def recordedCalls (engine : Engine) : List Call :=
  engine.events.filterMap fun event =>
    match event with
    | .recorded call => some call
    | _ => none

end Engine

end InlineCompletion
