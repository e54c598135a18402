import InlineCompletion.Engine.State

/-!
Stopping what is under way: a call through its client, a stream, and a request with whatever it has
started. None of this ends a task at once; it ends when the loop runs it again.
-/

namespace InlineCompletion.Engine

variable (engine : Engine)

/-- Asks the client to cancel a call that it still works on. -/
def cancelCall (call : Nat) : Engine :=
  if engine.client.ignoresCancel then engine
  else if call ∈ engine.client.activeCalls && engine.loop.isPending call then
    (engine.withClient (·.markAborted call)).withLoop (·.cancel call)
  else engine

/-- Closes a stream once. -/
def finishStream (id : Nat) : Engine :=
  match engine.streams[id]? with
  | none => engine
  | some stream =>
    if stream.closed then engine
    else if stream.reported then
      (engine.modifyStream id fun s => { s with closed := true, reports := s.reports + 1 }).withClient
        (·.dropStream id)
    else engine.modifyStream id fun s => { s with closed := true }

/-- Cancels the read that is under way, if there is one. -/
def cancelRead (pending : Option Nat) : Engine :=
  match pending with
  | none => engine
  | some read => engine.withLoop (·.cancel read)

/-- Stops a stream once: its reader is told so at the current or next read. -/
def abortStream (id : Nat) : Engine :=
  match engine.streams[id]? with
  | none => engine
  | some stream =>
    if stream.aborted then engine
    else
      ((engine.modifyStream id fun s => { s with aborted := true }).cancelRead
        stream.pending).finishStream id

/-- Cancels all calls and aborts all streams of the client. -/
def abortClient : Engine :=
  let stopped := engine.client.activeCalls.foldl cancelCall engine
  stopped.client.activeStreams.foldl abortStream stopped

def stopCall (call : Nat) : Engine :=
  (engine.emit (.stoppedCall call)).cancelCall call

def stopStream (stream : Nat) : Engine :=
  (engine.emit (.stoppedStream stream)).abortStream stream

def isCancelled (request : Nat) : Bool :=
  engine.requests[request]?.any (·.cancelled)

/-- What the request works on is the stream if it has one. -/
def stopWork (request : Request) : Engine :=
  match request.stream, request.call with
  | some stream, _ => engine.stopStream stream
  | none, some call => engine.stopCall call
  | none, none => engine

/-- Cancels a request once: those who wait for that wake up, and its work is stopped. -/
def cancelRequest (id : Nat) : Engine :=
  match engine.requests[id]? with
  | none => engine
  | some request =>
    if request.cancelled then engine
    else
      let marked := engine.modifyRequest id fun r => { r with cancelled := true, waiters := [] }
      (marked.withLoop fun loop =>
        request.waiters.foldl (fun l waiter => l.settle waiter (.value (.truth true))) loop).stopWork
          request

/-- Gives a request the call it started; a cancelled request stops it. -/
def attachCall (request call : Nat) : Engine :=
  let attached := engine.modifyRequest request fun r => { r with call := some call }
  if engine.isCancelled request then attached.stopCall call else attached

def attachStream (request stream : Nat) : Engine :=
  let attached := engine.modifyRequest request fun r => { r with stream := some stream }
  if engine.isCancelled request then attached.stopStream stream else attached

end InlineCompletion.Engine
