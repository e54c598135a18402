import InlineCompletion.Engine.Stop

/-!
Reading streams. Every piece is read by a task of its own, so that the reader can be told of an
abort while that task waits at the gate of the client.
-/

namespace InlineCompletion

def streamAborted : Failure := ⟨.aborted, "Stream aborted"⟩

def streamEnded : Failure := ⟨.streamEnd, []⟩

def readOverlap : Failure := ⟨.runtime, "anext(): asynchronous generator is already running"⟩

def closeOverlap : Failure := ⟨.runtime, "aclose(): asynchronous generator is already running"⟩

/-- How far a source gets. -/
inductive Pulled where
  | ended (outcome : Outcome)
  /-- The gate is closed. -/
  | blocked
  deriving DecidableEq, Repr

/-- Runs a source up to its next piece. A source that fails has nothing more to do. -/
def Client.pull (client : Client) : List SourceAction → Pulled × List SourceAction
  | [] => (.ended (.value .drained), [])
  | .passGate :: rest => if client.gateOpen then client.pull rest else (.blocked, rest)
  | .checkFailure :: rest =>
    match client.failure with
    | some failure => (.ended (.failed failure), [])
    | none => client.pull rest
  | .piece t :: rest => (.ended (.value (.text t)), rest)
  | .fail failure :: _ => (.ended (.failed failure), [])

namespace Engine

variable (engine : Engine)

/-- Lets the running task wait for the gate. -/
def awaitGate (phase : Phase) : Step :=
  let (waiter, engine) := engine.addFuture
  (engine.withClient fun c => { c with gateWaiters := c.gateWaiters ++ [waiter] },
    .wait waiter phase)

/-- The client begins to work on a call and takes the reply to it. -/
def takeReply (call : Call) : Reply × Engine :=
  let (reply, client) := engine.client.takeReply
  (reply, { engine with client }.emit (.recorded call))

/-- Makes the call that a source begins with. -/
def openSource (id : Nat) : Engine :=
  match engine.streams[id]?.bind (·.source.opening) with
  | none => engine
  | some call =>
    let (reply, engine) := engine.takeReply call
    engine.modifySource id fun source => { source with opening := none, actions := reply.actions }

/-- Goes on inside a source until it has a piece, ends or has to wait. -/
def pullSource (id : Nat) : Step :=
  match engine.streams[id]? with
  | none => (engine, .done (.value .drained))
  | some stream =>
    match engine.client.pull stream.source.actions with
    | (.ended outcome, actions) =>
      (engine.modifySource id fun source => { source with actions, busy := false }, .done outcome)
    | (.blocked, actions) =>
      (engine.modifySource id fun source => { source with actions, busy := true }).awaitGate
        (.pulling id)

/-- A read that begins. -/
def startPull (id : Nat) : Step :=
  if engine.streams[id]?.any (·.source.busy) then (engine, .done (.failed readOverlap))
  else (engine.openSource id).pullSource id

/-- A read behind the gate. A source whose read is cancelled has nothing more to do, unless the
client goes on. -/
def resumePull (id : Nat) : Outcome → Step
  | .value _ => engine.pullSource id
  | outcome =>
    if engine.client.heedless then engine.pullSource id
    else
      (engine.modifySource id fun source => { source with actions := [], busy := false },
        .done outcome)

/-- Starts to read the next piece: the task that does it, or why there is none. -/
def beginRead (id : Nat) : Except Failure Nat × Engine :=
  match engine.streams[id]? with
  | none => (.error streamEnded, engine)
  | some stream =>
    if stream.aborted then (.error streamAborted, engine)
    else if stream.closed then (.error streamEnded, engine)
    else
      let (read, engine) := engine.spawn (.pull id)
      (.ok read, engine.modifyStream id fun s => { s with pending := some read })

/-- What the reader gets when its wait is over. A failure or the end closes the stream. -/
def endRead (id : Nat) (outcome : Outcome) : Outcome × Engine :=
  let free := engine.modifyStream id fun s => { s with pending := none }
  match outcome with
  | .cancelled =>
    if engine.streams[id]?.any (·.aborted) then (.failed streamAborted, free)
    else (.cancelled, free)
  | .failed failure => (.failed failure, free.finishStream id)
  | .value .drained => (.failed streamEnded, free.finishStream id)
  | .value v => (.value v, free)

/-- Closes a stream and its source; a source that is being read cannot be closed. -/
def closeStream (id : Nat) : Option Failure × Engine :=
  let finished := engine.finishStream id
  match engine.streams[id]? with
  | none => (none, finished)
  | some stream =>
    if !stream.source.closable then (none, finished)
    else if stream.source.busy then (some closeOverlap, finished)
    else
      (none,
        finished.modifySource id fun source => { source with opening := none, actions := [] })

/-- What a closed source still does: how that ends, or nothing yet where the gate is closed. -/
def bidFarewell (id : Nat) : Option Outcome × Engine :=
  match engine.streams[id]? with
  | none => (some (.value .nothing), engine)
  | some stream =>
    if !stream.source.closable then (some (.value .nothing), engine)
    else
      match engine.client.pull stream.source.farewell with
      | (.ended (.failed failure), farewell) =>
        (some (.failed failure), engine.modifySource id fun source => { source with farewell })
      | (.ended _, farewell) =>
        (some (.value .nothing), engine.modifySource id fun source => { source with farewell })
      | (.blocked, farewell) =>
        (none, engine.modifySource id fun source => { source with farewell })

/-- A closed source behind the gate. -/
def resumeFarewell (id : Nat) : Outcome → Option Outcome × Engine
  | .value _ => engine.bidFarewell id
  | outcome =>
    if engine.client.heedless then engine.bidFarewell id
    else (some outcome, engine.modifySource id fun source => { source with farewell := [] })

/-- Reads one piece for the running task. -/
def startNext (id : Nat) : Step :=
  match engine.beginRead id with
  | (.ok read, engine) => (engine, .wait read (.reading id .next))
  | (.error failure, engine) => (engine, .done (.failed failure))

/-- The text of all pieces, once the stream ends. -/
def collected (pieces : List Text) (outcome : Outcome) : Outcome :=
  if outcome = .failed streamEnded then .value (.text pieces.flatten) else outcome

/-- Reads the next piece for one who collects all of them. -/
def startCollect (id : Nat) (pieces : List Text) : Step :=
  match engine.beginRead id with
  | (.ok read, engine) => (engine, .wait read (.reading id (.collect pieces)))
  | (.error failure, engine) => (engine, .done (collected pieces (.failed failure)))

end Engine

end InlineCompletion
