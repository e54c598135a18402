import InlineCompletion.Engine.Stop

/-!
Waiting for a while unless the request is cancelled. A task watches the request, and the one who
waits goes on when that task or the timer ends first; a watch that lost is cancelled and waited for.
-/

namespace InlineCompletion

/-- What to do with the answer of a debounce, and the engine in which to do it. -/
inductive Debounced where
  | waiting (target : Nat) (phase : Phase)
  /-- True when nobody cancelled the request. -/
  | ended (outcome : Outcome)

/-- Whole nanoseconds of a delay in seconds; a positive delay has at least one. -/
def nanosecondsOf (seconds : Float) : Nat :=
  match Decimal.Exact.ofFloat seconds with
  | .finite false mantissa exponent =>
    let delay := Decimal.Ratio.ofBinary (mantissa * 1000000000) exponent
    if mantissa = 0 then 0 else max 1 (delay.num / delay.den)
  | _ => 0

namespace Engine

variable (engine : Engine)

def startWatch (request : Nat) : Step :=
  if engine.isCancelled request then (engine, .done (.value (.truth true)))
  else
    let (waiter, engine) := engine.addFuture
    (engine.modifyRequest request fun r => { r with waiters := r.waiters ++ [waiter] },
      .wait waiter .watching)

/-- How the wait ends when the watch has ended: the request was cancelled unless the watch was. -/
def watchOutcome : Option Outcome → Outcome
  | some (.value _) => .value (.truth false)
  | some outcome => outcome
  | none => .cancelled

def startDebounce (request delay : Nat) (owner : Option Run) : Engine × Debounced :=
  if engine.isCancelled request then (engine, .ended (.value (.truth false)))
  else if delay = 0 then (engine, .ended (.value (.truth true)))
  else
    let (waiter, engine) := engine.addFuture
    let engine := engine.withLoop (·.setTimer delay waiter)
    let (watch, engine) := engine.spawn (.watch request)
    (engine.withLoop (·.watch watch (.release waiter)),
      .waiting waiter (.debouncing watch owner))

/-- Cancels the watch and waits for its end. -/
def unwindWatch (watch : Nat) (timedOut : Bool) (owner : Option Run) : Engine × Debounced :=
  let (waiter, engine) := engine.addFuture
  (engine.withLoop fun loop => (loop.watch watch (.release waiter)).cancel watch,
    .waiting waiter (.unwinding watch timedOut owner))

/-- The timer or the watch has ended, or the task is cancelled. -/
def resumeDebounce (watch : Nat) (owner : Option Run) (outcome : Outcome) : Engine × Debounced :=
  if engine.loop.isDone watch then (engine, .ended (watchOutcome (engine.loop.outcome? watch)))
  else engine.unwindWatch watch (outcome ≠ .cancelled) owner

/-- The watch has ended. If it was cancelled because the time was over, the wait is over too;
otherwise the request was cancelled. -/
def resumeUnwinding (watch : Nat) (timedOut : Bool) (outcome : Outcome) : Engine × Debounced :=
  if outcome = .cancelled || !timedOut then (engine, .ended .cancelled)
  else (engine, .ended (.value (.truth (engine.loop.outcome? watch = some .cancelled))))

end Engine

end InlineCompletion
