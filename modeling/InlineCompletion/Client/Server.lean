import InlineCompletion.Client.Basic
import InlineCompletion.Data.Display

/-!
The adapter that speaks to a local model server: what it sends, and what it makes of the replies.
-/

namespace InlineCompletion

def defaultHost : Text := "http://localhost:11434"

structure Adapter where
  model : Text := []
  host : Text := defaultHost
  deriving DecidableEq, Repr

/-- A model that the server has. -/
structure ModelInfo where
  name : Text
  details : Text
  deriving DecidableEq, Repr

/-- The answer to a single call. -/
structure Response where
  content : Text
  inputTokens : Int
  outputTokens : Int
  model : Text
  provider : Text
  deriving DecidableEq, Repr

def Response.fields (response : Response) : List (Text × Data) :=
  [("content", .text response.content), ("input_tokens", .int response.inputTokens),
    ("output_tokens", .int response.outputTokens), ("model", .text response.model),
    ("provider", .text response.provider)]

/-- What the server says to every request, unless it fails. -/
structure Backend where
  reply : Data := .null
  failure : Option Failure := none

namespace Backend

def answer (backend : Backend) : Except Failure Data :=
  backend.failure.elim (.ok backend.reply) .error

end Backend

namespace Adapter

def providerName : Text := "ollama"

variable (adapter : Adapter)

/-- The model of the call unless that is missing or empty. -/
def modelFor (call : Call) : Text :=
  match call.model with
  | some (c :: rest) => c :: rest
  | _ => adapter.model

def messageData (role content : Text) : Data :=
  .record [("role", .text role), ("content", .text content)]

/-- The system text comes first, unless it is empty. -/
def messagesOf (call : Call) : List Data :=
  (match call.system with
    | some (c :: rest) => [messageData "system" (c :: rest)]
    | _ => []) ++
    call.messages.map fun m => messageData m.role.name m.content

/-- The request without the mark of a stream. -/
def requestFields (call : Call) : List (Text × Data) :=
  [("model", .text (adapter.modelFor call)), ("messages", .list (messagesOf call)),
    ("options",
      .record [("num_predict", call.maxTokens), ("temperature", call.temperature)])]

def request (call : Call) : Data :=
  .record (adapter.requestFields call)

/-- The request as it is sent. -/
def sent (call : Call) : Data :=
  let mark : List (Text × Data) := [("stream", .bool true)]
  .record ((if call.streamed then mark else []) ++ adapter.requestFields call)

/-- What is done for one call, in order. -/
def trace (call : Call) : List Data :=
  [.record [("client", .record [("host", .text adapter.host)])],
    .record [("chat", adapter.sent call)]]

/-- What is done to list the models. -/
def listTrace : List Data :=
  [.record [("client", .record [("host", .text adapter.host)])],
    .record [("list", .record [])]]

def contentOf (part : Data) : Except Failure Data := do
  (← part.item "message").item "content"

def readResponse (model : Text) (content input output : Data) : Validated Response :=
  Response.mk <$> Validated.ofField "content" (Coerce.text content)
    <*> Validated.ofField "input_tokens" (Coerce.int input)
    <*> Validated.ofField "output_tokens" (Coerce.int output)
    <*> pure model <*> pure providerName

/-- The response in a reply to a single call. -/
def respond (model : Text) (reply : Data) : Except Failure Response := do
  let content ← contentOf reply
  let input ← reply.get "prompt_eval_count"
  let output ← reply.get "eval_count"
  (readResponse model content (input.orElse (.int 0)) (output.orElse (.int 0))).toExcept

/-- The answer to a single call as the client gives it. -/
def singleReply (backend : Backend) (model : Text) : Reply :=
  match backend.answer.bind (respond model) with
  | .ok response => ⟨[response.content], none⟩
  | .error failure => ⟨[], some failure⟩

/-- The contents of the parts of a stream, up to a part that lacks its content; those that are
empty are left out. -/
def contents : List Data → List Data × Option Failure
  | [] => ([], none)
  | part :: parts =>
    match contentOf part with
    | .error failure => ([], some failure)
    | .ok value =>
      let (values, failure) := contents parts
      (if value.isTruthy then value :: values else values, failure)

/-- What a streamed call yields. -/
def streamed (backend : Backend) : List Data × Option Failure :=
  match backend.answer with
  | .error failure => ([], some failure)
  | .ok (.list parts) => contents parts
  | .ok reply =>
    ([], some ⟨.type, "'async for' requires an object with __aiter__ method, got " ++
      reply.typeName⟩)

/-- Values as fragments of a text; the first that is no text spoils it. -/
def fragmentsOf (index : Nat) : List Data → Reply
  | [] => ⟨[], none⟩
  | .text t :: values =>
    let more := fragmentsOf (index + 1) values
    { more with fragments := t :: more.fragments }
  | value :: _ =>
    ⟨[], some ⟨.type, "sequence item " ++ Text.ofNat index ++ ": expected str instance, " ++
      value.typeName ++ " found"⟩⟩

/-- The answer to a streamed call. What is no text shows only when all has been read. -/
def streamReply (backend : Backend) : Reply :=
  let (values, failure) := streamed backend
  let reply := fragmentsOf 0 values
  { reply with failure := failure.or reply.failure }

/-- The client that the adapter is, for calls that are all streamed or all single. -/
def client (backend : Backend) (streamed : Bool) : Client where
  replies := [if streamed then streamReply backend else singleReply backend adapter.model]

def describeModel (details : Data) : Except Failure Text :=
  if details.isTruthy then do
    let family ← details.get "family"
    let size ← details.get "parameter_size"
    .ok (Text.trim ((family.orElse (.text [])).display ++ ' ' ::
      (size.orElse (.text [])).display))
  else .ok []

def readModel (name : Data) (details : Text) : Validated ModelInfo :=
  ModelInfo.mk <$> Validated.ofField "name" (Coerce.text name) <*> pure details

def modelOf (entry : Data) : Except Failure ModelInfo := do
  let model ← entry.get "model"
  let name ← if model.isTruthy then .ok model else entry.get "name"
  let details ← describeModel (← entry.get "details")
  (readModel (name.orElse (.text [])) details).toExcept

/-- The models in the reply to a listing. -/
def models (backend : Backend) : Except Failure (List ModelInfo) := do
  let reply ← backend.answer
  let entries ← (← reply.item "models").elements
  entries.mapM modelOf

end Adapter

end InlineCompletion
