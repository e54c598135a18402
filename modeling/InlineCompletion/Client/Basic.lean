import InlineCompletion.Data.Validated

/-!
Calls to a model, and a client that answers them from a list of replies. A gate holds back what the
client says while it is closed.
-/

namespace InlineCompletion

inductive Role where
  | user
  | assistant
  | system
  deriving DecidableEq, Repr

namespace Role

def name : Role → Text
  | user => "user"
  | assistant => "assistant"
  | system => "system"

def all : List Role :=
  [user, assistant, system]

def read : Data → Except Mismatch Role
  | .text t => (all.find? fun role => role.name = t).elim (.error (.oneOf (all.map name))) .ok
  | _ => .error (.oneOf (all.map name))

end Role

structure Message where
  role : Role
  content : Text
  deriving DecidableEq, Repr

def Message.read (source : Data) : Validated Message :=
  Message.mk <$> Validated.requiredField source "role" Role.read
    <*> Validated.requiredField source "content" Coerce.text

def defaultMaxTokens : Data := .int 256

def defaultTemperature : Data := .real 0.2

/-- What a model is asked. The limits are numbers as the caller gave them. -/
structure Call where
  streamed : Bool
  messages : List Message
  model : Option Text := none
  system : Option Text := none
  maxTokens : Data := defaultMaxTokens
  temperature : Data := defaultTemperature

/-- What a model answers: text in fragments, and perhaps a failure after them. -/
structure Reply where
  fragments : List Text
  failure : Option Failure := none
  deriving DecidableEq, Repr

/-- The whole answer at once. -/
def Reply.whole (reply : Reply) : Except Failure Text :=
  match reply.failure with
  | some failure => .error failure
  | none => .ok reply.fragments.flatten

structure Client where
  /-- One for each call; the last one is used again and again. -/
  replies : List Reply
  /-- Raised by every call that passes the gate. -/
  failure : Option Failure := none
  gateOpen : Bool := true
  /-- Futures that end when the gate opens. -/
  gateWaiters : List Nat := []
  /-- The client lets calls run on that are cancelled through it. -/
  ignoresCancel : Bool := false
  /-- What the client does goes on when it is cancelled. -/
  heedless : Bool := false
  taken : Nat := 0
  /-- Single calls that are still awaited, by the futures of their tasks. -/
  activeCalls : List Nat := []
  /-- Active calls that were cancelled through the client. -/
  abortedCalls : List Nat := []
  /-- Streams that are not closed. -/
  activeStreams : List Nat := []

namespace Client

variable (client : Client)

def nextReply : Reply :=
  (client.replies[client.taken]?).getD (client.replies.getLastD ⟨[], none⟩)

def takeReply : Reply × Client :=
  (client.nextReply, { client with taken := client.taken + 1 })

def activeCount : Nat :=
  client.activeCalls.length + client.activeStreams.length

def addCall (call : Nat) : Client :=
  { client with activeCalls := client.activeCalls ++ [call] }

def markAborted (call : Nat) : Client :=
  { client with
    abortedCalls :=
      if call ∈ client.abortedCalls then client.abortedCalls else client.abortedCalls ++ [call] }

/-- The call is no longer awaited. -/
def dropCall (call : Nat) : Client :=
  { client with
    activeCalls := client.activeCalls.filter (· ≠ call)
    abortedCalls := client.abortedCalls.filter (· ≠ call) }

def addStream (stream : Nat) : Client :=
  { client with activeStreams := client.activeStreams ++ [stream] }

def dropStream (stream : Nat) : Client :=
  { client with activeStreams := client.activeStreams.filter (· ≠ stream) }

end Client

end InlineCompletion
