import InlineCompletion.Cache.Basic
import InlineCompletion.Client.Basic
import InlineCompletion.Context.Classification
import InlineCompletion.Document.Basic
import InlineCompletion.Loop.Basic
import InlineCompletion.Settings.Basic

/-!
The state in which completion requests run: the event loop, a client that all share, the streams
and requests made so far, and the orchestrators. Streams and requests are numbered in the order in
which they are made.
-/

namespace InlineCompletion

/-- What the source of a stream does next. -/
inductive SourceAction where
  | passGate
  /-- Fails with the failure that the client has at that moment. -/
  | checkFailure
  | piece (t : Text)
  | fail (failure : Failure)
  deriving DecidableEq, Repr

/-- The client looks at its gate before the first fragment and after each. -/
def Reply.actions (reply : Reply) : List SourceAction :=
  .passGate :: .checkFailure ::
    reply.fragments.flatMap (fun fragment => [.piece fragment, .passGate]) ++
    (reply.failure.map .fail).toList

/-- Where a stream gets its pieces. -/
structure Source where
  /-- The call to make at the first read. -/
  opening : Option Call := none
  actions : List SourceAction := []
  /-- A read is waiting inside the source. -/
  busy : Bool := false
  /-- Closing the stream closes the source. -/
  closable : Bool := true
  /-- What the source still does when it is closed. -/
  farewell : List SourceAction := []

structure Stream where
  source : Source
  /-- The client is told when the stream closes. -/
  reported : Bool := true
  /-- How often it was told. -/
  reports : Nat := 0
  /-- The task of the latest read that is still awaited. -/
  pending : Option Nat := none
  aborted : Bool := false
  closed : Bool := false

/-- One completion request, as its owner can stop it. -/
structure Request where
  generation : Int
  cancelled : Bool := false
  /-- Futures that end when the request is cancelled. -/
  waiters : List Nat := []
  stream : Option Nat := none
  call : Option Nat := none
  deriving DecidableEq, Repr

def Request.description (request : Request) : Text :=
  "InFlightRequest(generation=" ++ Text.ofInt request.generation ++ ", cancelled=" ++
    (if request.cancelled then "True" else "False") ++ ")"

inductive Stage where
  | idle
  | debouncing
  | cacheHit
  | generating
  | done
  deriving DecidableEq, Repr

def Stage.name : Stage → Text
  | idle => "idle"
  | debouncing => "debouncing"
  | cacheHit => "cache_hit"
  | generating => "generating"
  | done => "done"

structure Orchestrator where
  settings : Settings
  cache : Cache Float
  /-- Empty while no model is selected. -/
  model : Text
  generation : Int := 0
  /-- The request that may still produce a completion. -/
  current : Option Nat := none
  stage : Stage := .idle

namespace Orchestrator

def ofCache (settings : Settings) (cache : Cache Float) : Orchestrator :=
  { settings, cache, model := Text.trim settings.model }

/-- With a cache of its own. -/
def ofSettings (settings : Settings) : Except Failure Orchestrator :=
  (Cache.empty settings.cacheSize settings.cacheTtlSeconds).map (ofCache settings)

end Orchestrator

/-- What the user is told. -/
inductive Notice where
  | noModel
  | failed (failure : Failure)
  | cacheCleared
  | notInitialized
  deriving DecidableEq, Repr

namespace Notice

def isWarning : Notice → Bool
  | cacheCleared => false
  | _ => true

def text : Notice → Text
  | noModel => "No Ollama model selected. Set OLLAMA_DEFAULT_MODEL or select a model."
  | failed failure => "Completion failed: " ++ failure.message
  | cacheCleared => "Completion cache cleared"
  | notInitialized => "Completion provider not initialized"

end Notice

/-- What happens for others to see. -/
inductive Event where
  /-- The client began to work on a call. -/
  | recorded (call : Call)
  /-- A request asked the client at this time. -/
  | asked (request now : Nat) (call : Call)
  /-- A request looked into the cache of an orchestrator. -/
  | consulted (orchestrator request : Nat) (key : Text)
  /-- A request put its completion into the cache of an orchestrator. -/
  | stored (orchestrator request : Nat) (key : Text)
  | notified (notice : Notice)
  /-- A request had its call cancelled. -/
  | stoppedCall (call : Nat)
  /-- A request had its stream aborted. -/
  | stoppedStream (stream : Nat)

/-- What a completion request keeps in mind while it waits. -/
structure Run where
  orchestrator : Nat
  request : Nat
  document : Document
  position : Position
  facts : Classification
  /-- Where the completion is kept; none where nothing is. -/
  key : Option Text
  deriving DecidableEq, Repr

/-- Who reads a stream, with the pieces read so far. -/
inductive Consumer where
  | next
  | collect (pieces : List Text)
  | completion (run : Run) (pieces : List Text)
  deriving DecidableEq, Repr

/-- Who closes a stream. A completion request knows what its reading came to. -/
inductive Closer where
  | outside
  | completion (run : Run) (outcome : Outcome)
  deriving DecidableEq, Repr

/-- What a task is made to do. -/
inductive Job where
  /-- Waits for the cancellation of a request. -/
  | watch (request : Nat)
  /-- Tells whether the request was left alone for so many nanoseconds. -/
  | debounce (request delay : Nat)
  /-- Works on a call for the client. -/
  | answer (call : Call)
  /-- Reads one piece from the source of a stream. -/
  | pull (stream : Nat)
  /-- Awaits a call that has been made. -/
  | chat (call : Call)
  | next (stream : Nat)
  | collect (stream : Nat)
  | close (stream : Nat)
  | complete (orchestrator : Nat) (document : Document) (position : Position)

/-- Where a task stands. A debounce or call without a run was asked for from outside. -/
inductive Phase where
  | start (job : Job)
  | watching
  /-- Waits for the release of its timer or for the watch on the request to end. -/
  | debouncing (watch : Nat) (owner : Option Run)
  /-- Waits for the watch that it cancelled. -/
  | unwinding (watch : Nat) (timedOut : Bool) (owner : Option Run)
  | answering (reply : Reply)
  | pulling (stream : Nat)
  | calling (call : Nat) (owner : Option Run)
  | reading (stream : Nat) (consumer : Consumer)
  | closing (stream : Nat) (closer : Closer)

structure Engine where
  client : Client
  loop : Loop Phase := {}
  streams : List Stream := []
  requests : List Request := []
  orchestrators : List Orchestrator := []
  /-- In the order in which they happened. -/
  events : List Event := []
  /-- What made the loop stop for good. -/
  interrupted : Option Failure := none

namespace Engine

variable (engine : Engine)

def withLoop (f : Loop Phase → Loop Phase) : Engine :=
  { engine with loop := f engine.loop }

def withClient (f : Client → Client) : Engine :=
  { engine with client := f engine.client }

def modifyStream (id : Nat) (f : Stream → Stream) : Engine :=
  { engine with streams := engine.streams.modify id f }

def modifySource (id : Nat) (f : Source → Source) : Engine :=
  engine.modifyStream id fun stream => { stream with source := f stream.source }

def modifyRequest (id : Nat) (f : Request → Request) : Engine :=
  { engine with requests := engine.requests.modify id f }

def modifyOrchestrator (id : Nat) (f : Orchestrator → Orchestrator) : Engine :=
  { engine with orchestrators := engine.orchestrators.modify id f }

def emit (event : Event) : Engine :=
  { engine with events := engine.events ++ [event] }

def notify (notice : Notice) : Engine :=
  engine.emit (.notified notice)

/-- A new bare future, with its number. -/
def addFuture : Nat × Engine :=
  let (id, loop) := engine.loop.addFuture
  (id, { engine with loop })

/-- A new task, with the number of its future. -/
def spawn (job : Job) : Nat × Engine :=
  let (id, loop) := engine.loop.spawn (.start job)
  (id, { engine with loop })

def addStream (stream : Stream) : Nat × Engine :=
  (engine.streams.length, { engine with streams := engine.streams ++ [stream] })

def addRequest (request : Request) : Nat × Engine :=
  (engine.requests.length, { engine with requests := engine.requests ++ [request] })

end Engine

/-- What a task does when it has run for a while: waits again or ends. -/
inductive Verdict where
  | wait (target : Nat) (phase : Phase)
  | done (outcome : Outcome)

abbrev Step := Engine × Verdict

/-- What the engine takes from outside. -/
structure Environment where
  /-- A digest of a text in hexadecimal digits. -/
  digest : Text → Text
  /-- The clock of the caches by the time of the loop. -/
  clock : Nat → Float

end InlineCompletion
