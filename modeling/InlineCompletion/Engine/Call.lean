import InlineCompletion.Engine.Read

/-!
Single calls: a task of the client works on the call, and another one awaits it.
-/

namespace InlineCompletion

def callAborted : Failure := ⟨.aborted, "Model call aborted"⟩

namespace Engine

variable (engine : Engine)

/-- What the client says once it is past the gate. -/
def answerOutcome (client : Client) (reply : Reply) : Outcome :=
  match client.failure with
  | some failure => .failed failure
  | none =>
    match reply.whole with
    | .ok text => .value (.text text)
    | .error failure => .failed failure

def startAnswer (call : Call) : Step :=
  let (reply, engine) := engine.takeReply call
  if engine.client.gateOpen then (engine, .done (answerOutcome engine.client reply))
  else engine.awaitGate (.answering reply)

/-- Behind the gate. A call that is cancelled ends so, unless the client goes on. -/
def resumeAnswer (reply : Reply) : Outcome → Step
  | .value _ => (engine, .done (answerOutcome engine.client reply))
  | outcome =>
    if !engine.client.heedless then (engine, .done outcome)
    else if engine.client.gateOpen then (engine, .done (answerOutcome engine.client reply))
    else engine.awaitGate (.answering reply)

/-- Starts a call, which is active until it is no longer awaited. -/
def beginCall (call : Call) : Nat × Engine :=
  let (id, engine) := engine.spawn (.answer call)
  (id, engine.withClient (·.addCall id))

/-- What the one who awaits the call gets. A call cancelled through the client was aborted. -/
def endCall (call : Nat) (outcome : Outcome) : Outcome × Engine :=
  let seen : Outcome :=
    if outcome = .cancelled && call ∈ engine.client.abortedCalls then .failed callAborted
    else outcome
  (seen, engine.withClient (·.dropCall call))

def startChat (call : Call) : Step :=
  let (id, engine) := engine.beginCall call
  (engine, .wait id (.calling id none))

/-- A stream of the client, whose call is made at the first read. -/
def openStream (call : Call) : Nat × Engine :=
  let (id, engine) := engine.addStream { source := { opening := some call } }
  (id, engine.withClient (·.addStream id))

end Engine

end InlineCompletion
