import InlineCompletion.Failure

/-!
An event loop on one thread. Futures are numbered in the order in which they are made and end once.
A task is a future with a phase, which says where it goes on when what it waits for ends; work that
is ready runs in the order in which it became so. What the phases mean is left open here.
-/

namespace InlineCompletion

inductive Value where
  | nothing
  | truth (b : Bool)
  | text (t : Text)
  /-- A source has no more pieces. -/
  | drained
  deriving DecidableEq, Repr

/-- How a future ends. -/
inductive Outcome where
  | value (v : Value)
  | failed (failure : Failure)
  | cancelled
  deriving DecidableEq, Repr

/-- Work for the loop: a task goes on, or a bare future ends with nothing. -/
inductive Handle where
  | wake (task : Nat)
  | release (waiter : Nat)
  deriving DecidableEq, Repr

structure Activity (π : Type) where
  phase : π
  /-- The future whose end the task waits for. -/
  waitingFor : Option Nat := none
  /-- The task is to be cancelled when it goes on. -/
  cancelRequested : Bool := false
  deriving DecidableEq, Repr

structure Future (π : Type) where
  outcome : Option Outcome := none
  /-- What becomes ready when the future ends. -/
  watchers : List Handle := []
  /-- Only a task has one. -/
  activity : Option (Activity π) := none
  deriving DecidableEq, Repr

structure Timer where
  deadline : Nat
  waiter : Nat
  deriving DecidableEq, Repr

structure Loop (π : Type) where
  /-- Nanoseconds since the start. -/
  now : Nat := 0
  futures : List (Future π) := []
  ready : List Handle := []
  /-- By deadline; equal ones in the order in which they were set. -/
  timers : List Timer := []
  deriving DecidableEq, Repr

namespace Loop

variable {π : Type} (loop : Loop π)

def outcome? (id : Nat) : Option Outcome :=
  loop.futures[id]?.bind (·.outcome)

def isDone (id : Nat) : Bool :=
  (loop.outcome? id).isSome

def isPending (id : Nat) : Bool :=
  loop.futures[id]?.any (·.outcome.isNone)

def activity? (id : Nat) : Option (Activity π) :=
  loop.futures[id]?.bind (·.activity)

def modifyFuture (id : Nat) (f : Future π → Future π) : Loop π :=
  { loop with futures := loop.futures.modify id f }

def enqueue (handles : List Handle) : Loop π :=
  { loop with ready := loop.ready ++ handles }

/-- A new bare future, with its number. -/
def addFuture : Nat × Loop π :=
  (loop.futures.length, { loop with futures := loop.futures ++ [{}] })

/-- A new task, ready to start, with its number. -/
def spawn (phase : π) : Nat × Loop π :=
  let id := loop.futures.length
  (id,
    { loop with
      futures := loop.futures ++ [{ activity := some { phase } }]
      ready := loop.ready ++ [.wake id] })

/-- Ends a future and makes its watchers ready; one that has ended stays as it is. -/
def settle (id : Nat) (outcome : Outcome) : Loop π :=
  match loop.futures[id]? with
  | none => loop
  | some future =>
    if future.outcome.isSome then loop
    else
      (loop.modifyFuture id fun f => { f with outcome := some outcome, watchers := [] }).enqueue
        future.watchers

/-- Makes the handle ready when the future has ended. -/
def watch (id : Nat) (handle : Handle) : Loop π :=
  if loop.isDone id then loop.enqueue [handle]
  else loop.modifyFuture id fun f => { f with watchers := f.watchers ++ [handle] }

def setActivity (id : Nat) (activity : Activity π) : Loop π :=
  loop.modifyFuture id fun f => { f with activity := some activity }

/-- Lets the task wait for a future. -/
def park (task : Nat) (phase : π) (target : Nat) : Loop π :=
  (loop.setActivity task { phase, waitingFor := some target }).watch target (.wake task)

def requestCancel (id : Nat) : Loop π :=
  loop.modifyFuture id fun f =>
    { f with activity := f.activity.map fun a => { a with cancelRequested := true } }

/-- Cancels what the future waits for in the end: the first bare future on the chain that has not
ended, or else the task that waits for nothing that has not. -/
def cancelChain : Nat → Nat → Loop π → Loop π
  | 0, _, loop => loop
  | fuel + 1, id, loop =>
    match loop.futures[id]? with
    | none => loop
    | some future =>
      if future.outcome.isSome then loop
      else
        match future.activity with
        | none => loop.settle id .cancelled
        | some activity =>
          match activity.waitingFor with
          | none => loop.requestCancel id
          | some target =>
            if loop.isPending target then cancelChain fuel target loop
            else loop.requestCancel id

/-- No chain of waits is longer than there are futures. -/
def cancel (id : Nat) : Loop π :=
  cancelChain loop.futures.length id loop

def insertTimer (timer : Timer) : List Timer → List Timer
  | [] => [timer]
  | other :: rest =>
    if timer.deadline < other.deadline then timer :: other :: rest
    else other :: insertTimer timer rest

/-- Releases the waiter after a while. -/
def setTimer (delay waiter : Nat) : Loop π :=
  { loop with timers := insertTimer ⟨loop.now + delay, waiter⟩ loop.timers }

def advance (duration : Nat) : Loop π :=
  { loop with now := loop.now + duration }

/-- Makes ready what the timers that are due release. -/
def fireTimers : Loop π :=
  let due := loop.timers.takeWhile fun timer => timer.deadline ≤ loop.now
  { loop with
    ready := loop.ready ++ due.map fun timer => .release timer.waiter
    timers := loop.timers.dropWhile fun timer => timer.deadline ≤ loop.now }

/-- The next handle and the loop without it. -/
def next? : Option (Handle × Loop π) :=
  match loop.ready with
  | [] => none
  | handle :: rest => some (handle, { loop with ready := rest })

end Loop

end InlineCompletion
