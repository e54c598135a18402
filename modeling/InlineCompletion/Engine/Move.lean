import InlineCompletion.Engine.Run

/-!
Runs of the engine as data: what its users, the clock and the client may do between two turns of the
loop, in any order. A move that is not possible changes nothing.
-/

namespace InlineCompletion

namespace Phase

/-- The completion that the task works on, once it has begun. -/
def run? : Phase → Option Run
  | .debouncing _ owner | .unwinding _ _ owner | .calling _ owner => owner
  | .reading _ (.completion run _) | .closing _ (.completion run _) => some run
  | _ => none

/-- The orchestrator of a completion that has not begun. -/
def starts? : Phase → Option Nat
  | .start (.complete orchestrator _ _) => some orchestrator
  | _ => none

/-- Whether the task was made for someone who wants a completion. -/
def isCompletion (phase : Phase) : Bool :=
  phase.run?.isSome || phase.starts?.isSome

end Phase

inductive Move where
  /-- The loop runs what became ready first. -/
  | turn
  /-- The loop looks at its timers. -/
  | fireTimers
  | pass (nanoseconds : Nat)
  | request (orchestrator : Nat) (document : Document) (position : Position)
  | cancel (orchestrator : Nat)
  | selectModel (orchestrator : Nat) (model : Text)
  | clearCache (orchestrator : Nat) (notify : Bool)
  /-- One who wants a completion cancels the task that was made for it. -/
  | cancelTask (task : Nat)
  /-- Everything that the client works on is cancelled. -/
  | abort
  | openGate
  | closeGate
  /-- The client goes on with one thing that waits at the gate. -/
  | proceed (waiter : Nat)
  /-- The client changes what it answers, and whether it minds being cancelled. -/
  | script (replies : List Reply) (failure : Option Failure) (ignoresCancel heedless : Bool)
  /-- The client changes what a stream still yields, and what it does when it is closed. -/
  | rescript (stream : Nat) (actions farewell : List SourceAction) (closable : Bool)

/-- A client that nobody has used. -/
def Client.unused (client : Client) : Client :=
  { client with
    gateWaiters := []
    taken := 0
    activeCalls := []
    abortedCalls := []
    activeStreams := [] }

namespace Engine

variable (engine : Engine)

/-- The phase of a task that has not ended. -/
def phaseOf (task : Nat) : Option Phase :=
  if engine.loop.isDone task then none else (engine.loop.activity? task).map (·.phase)

/-- The completion that a task works on, while it lasts. -/
def runOf (task : Nat) : Option Run :=
  (engine.phaseOf task).bind (·.run?)

/-- The task that the next turn runs. -/
def woken? : Option Nat :=
  if engine.interrupted.isSome then none
  else
    match engine.loop.ready with
    | .wake task :: _ => some task
    | _ => none

def proceed (waiter : Nat) : Engine :=
  if waiter ∈ engine.client.gateWaiters then
    (engine.withClient fun c =>
      { c with gateWaiters := c.gateWaiters.filter (· ≠ waiter) }).withLoop
        (·.settle waiter (.value .nothing))
  else engine

def cancelCompletion (task : Nat) : Engine :=
  if (engine.phaseOf task).any (·.isCompletion) then engine.cancelTask task else engine

def apply (env : Environment) : Move → Engine
  | .turn => (engine.turn? env).getD engine
  | .fireTimers => engine.withLoop (·.fireTimers)
  | .pass nanoseconds => engine.withLoop (·.advance nanoseconds)
  | .request orchestrator document position =>
    (engine.spawn (.complete orchestrator document position)).2
  | .cancel orchestrator => engine.cancelCurrent orchestrator
  | .selectModel orchestrator model => engine.selectModel orchestrator model
  | .clearCache orchestrator notify => engine.clearCacheFor orchestrator notify
  | .cancelTask task => engine.cancelCompletion task
  | .abort => engine.abortClient
  | .openGate => engine.openGate
  | .closeGate => engine.closeGate
  | .proceed waiter => engine.proceed waiter
  | .script replies failure ignoresCancel heedless =>
    engine.withClient fun c => { c with replies, failure, ignoresCancel, heedless }
  | .rescript stream actions farewell closable =>
    engine.modifySource stream fun source => { source with actions, farewell, closable }

def play (env : Environment) (moves : List Move) : Engine :=
  moves.foldl (fun engine move => engine.apply env move) engine

/-- Before the first move: orchestrators with their settings and caches share a client. -/
def opening (client : Client) (seats : List (Settings × Cache Float)) : Engine where
  client := client.unused
  orchestrators := seats.map fun seat => Orchestrator.ofCache seat.1 seat.2

/-- What a run has come to. -/
abbrev reached (env : Environment) (client : Client) (seats : List (Settings × Cache Float))
    (moves : List Move) : Engine :=
  (opening client seats).play env moves

end Engine

end InlineCompletion
