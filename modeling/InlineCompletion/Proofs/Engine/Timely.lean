import InlineCompletion.Engine.Move
import InlineCompletion.Proofs.Engine.Operations
import InlineCompletion.Proofs.Loop.Releases

/-!
Who waits for a time. While a task runs no time passes, and whoever waits for a time that has not come
goes on waiting: neither the gate of the client nor a request lets them go.
-/

namespace InlineCompletion

/-- The clock and its timers stand. -/
def Move.timeless : Move → Bool
  | .pass _ | .fireTimers => false
  | _ => true

namespace Engine

variable {engine old new last : Engine}

/-- The waiter waits for a time, or for the guard to be over. -/
structure Punctual (engine : Engine) (waiter guard due : Nat) : Prop where
  loop : engine.loop.Punctual waiter guard due
  gate : waiter ∉ engine.client.gateWaiters
  requests : ∀ (id : Nat) (request : Request), engine.requests[id]? = some request →
    waiter ∉ request.waiters

/-- No time passes, and whoever waits for a time still does. -/
structure Timely (old new : Engine) : Prop where
  now : new.loop.now = old.loop.now
  timers : ∀ timer ∈ old.loop.timers, timer ∈ new.loop.timers
  punctual : ∀ {waiter guard due : Nat}, old.Punctual waiter guard due → new.Punctual waiter guard due

namespace Timely

theorem refl (engine : Engine) : Timely engine engine :=
  ⟨rfl, fun _ member => member, fun punctual => punctual⟩

theorem trans (first : Timely old new) (second : Timely new last) : Timely old last :=
  ⟨second.now.trans first.now, fun timer member => second.timers timer (first.timers timer member),
    fun punctual => second.punctual (first.punctual punctual)⟩

/-- Those whom the gate and the requests release were released by them before. -/
theorem of_fewer (loop : new.loop = old.loop)
    (gate : ∀ waiter ∈ new.client.gateWaiters, waiter ∈ old.client.gateWaiters)
    (requests : ∀ (id : Nat) (request : Request), new.requests[id]? = some request →
      ∀ waiter ∈ request.waiters, ∃ (other : Nat) (found : Request),
        old.requests[other]? = some found ∧ waiter ∈ found.waiters) : Timely old new where
  now := congrArg Loop.now loop
  timers := fun _ member => loop ▸ member
  punctual := fun punctual => by
    refine ⟨loop ▸ punctual.loop, fun member => punctual.gate (gate _ member),
      fun id request known member => ?_⟩
    obtain ⟨other, found, known', member'⟩ := requests id request known _ member
    exact punctual.requests other found known' member'

theorem of_same (loop : new.loop = old.loop) (gate : new.client.gateWaiters = old.client.gateWaiters)
    (requests : new.requests = old.requests) : Timely old new :=
  .of_fewer loop (fun _ member => gate ▸ member)
    fun id request known _ member => ⟨id, request, requests ▸ known, member⟩

theorem of_alike (alike : Alike old new) : Timely old new :=
  .of_same alike.loop alike.gateWaiters alike.requests

theorem withLoop (engine : Engine) {f : Loop Phase → Loop Phase} (now : (f engine.loop).now = engine.loop.now)
    (timers : ∀ timer ∈ engine.loop.timers, timer ∈ (f engine.loop).timers)
    (punctual : ∀ {waiter guard due : Nat}, engine.Punctual waiter guard due →
      (f engine.loop).Punctual waiter guard due) : Timely engine (engine.withLoop f) :=
  ⟨now, timers, fun known => ⟨punctual known, known.gate, known.requests⟩⟩

end Timely

/-- A future that is new is none of those that are waited for. -/
theorem Punctual.ne_length {waiter guard due : Nat} (punctual : engine.Punctual waiter guard due) :
    waiter ≠ engine.loop.futures.length :=
  Nat.ne_of_lt punctual.loop.bare.1

theorem timely_spawn (engine : Engine) (job : Job) : Timely engine (engine.spawn job).2 :=
  .withLoop engine (f := fun loop => (loop.spawn (.start job)).2) rfl (fun _ member => member)
    fun punctual => punctual.loop.spawn _

theorem timely_cancel (engine : Engine) (root : Nat) : Timely engine (engine.withLoop (·.cancel root)) := by
  have step : Loop.Cancelled engine.loop root (engine.loop.cancel root) := Loop.cancelled_cancel root
  exact .withLoop engine step.now (fun _ member => step.timers ▸ member)
    fun punctual => punctual.loop.cancelled step

/-- The gate and the requests release only their own. -/
theorem timely_settleAll (engine : Engine) {waiters : List Nat} (o : Outcome)
    (apart : ∀ {waiter guard due : Nat}, engine.Punctual waiter guard due → waiter ∉ waiters) :
    Timely engine (engine.withLoop fun loop => waiters.foldl (fun l waiter => l.settle waiter o) loop) := by
  refine .withLoop engine (Loop.now_settleAll waiters o)
    (fun _ member => (Loop.timers_settleAll waiters o).symm ▸ member)
    fun punctual => punctual.loop.settleAll (apart punctual) o

theorem timely_awaitGate (engine : Engine) (phase : Phase) :
    Timely engine (engine.awaitGate phase).1 where
  now := rfl
  timers := fun _ member => member
  punctual := fun punctual => by
    refine ⟨punctual.loop.addFuture, fun member => ?_, punctual.requests⟩
    rcases List.mem_append.mp member with known | new
    · exact punctual.gate known
    · exact punctual.ne_length (List.mem_singleton.mp new)

/-- A request that only lets go of waiters. -/
theorem timely_modifyRequest (engine : Engine) (id : Nat) {f : Request → Request}
    (fewer : ∀ request, ∀ waiter ∈ (f request).waiters, waiter ∈ request.waiters) :
    Timely engine (engine.modifyRequest id f) := by
  refine .of_fewer rfl (fun _ member => member) fun other request known waiter member => ?_
  have known : (engine.requests.modify id f)[other]? = some request := known
  rw [getElem?_modify] at known
  split at known
  · obtain ⟨before, known', rfl⟩ := Option.map_eq_some_iff.mp known
    exact ⟨other, before, known', fewer before waiter member⟩
  · exact ⟨other, request, known, member⟩

theorem timely_addRequest (engine : Engine) (generation : Int) :
    Timely engine (engine.addRequest { generation }).2 := by
  refine .of_fewer rfl (fun _ member => member) fun other request known waiter member => ?_
  have known : (engine.requests ++ [({ generation } : Request)])[other]? = some request := known
  rw [List.getElem?_append] at known
  split at known
  · exact ⟨other, request, known, member⟩
  · cases List.mem_singleton.mp (List.mem_of_getElem? known)
    cases member

theorem timely_startWatch (engine : Engine) (request : Nat) :
    Timely engine (engine.startWatch request).1 := by
  unfold startWatch
  split
  · exact .refl engine
  · refine ⟨rfl, fun _ member => member, fun punctual => ⟨punctual.loop.addFuture, punctual.gate,
      fun other found known member => ?_⟩⟩
    have known : (engine.requests.modify request fun r =>
        { r with waiters := r.waiters ++ [engine.loop.futures.length] })[other]? = some found := known
    rw [getElem?_modify] at known
    split at known
    · obtain ⟨before, known', rfl⟩ := Option.map_eq_some_iff.mp known
      rcases List.mem_append.mp member with early | late
      · exact punctual.requests other before known' early
      · exact punctual.ne_length (List.mem_singleton.mp late)
    · exact punctual.requests other found known member

/-! A wait that begins is for a future that is new. -/

theorem timely_startDebounce (engine : Engine) (request delay : Nat) (owner : Option Run) :
    Timely engine (engine.startDebounce request delay owner).1 := by
  unfold startDebounce
  split
  · exact .refl engine
  · split
    · exact .refl engine
    · refine ⟨Loop.now_watch .., fun timer member => ?_,
        fun punctual => ⟨?_, punctual.gate, punctual.requests⟩⟩
      · exact (Loop.timers_watch ..).symm ▸ Loop.mem_insertTimer.mpr (Or.inr member)
      have apart := punctual.ne_length
      have set := (punctual.loop.addFuture.setTimer apart.symm delay).spawn (.start (.watch request))
      exact set.watch (fun same => apart (Handle.release.inj same).symm) _

theorem timely_unwindWatch (engine : Engine) (watch : Nat) (timedOut : Bool) (owner : Option Run) :
    Timely engine (engine.unwindWatch watch timedOut owner).1 := by
  have noted : Timely engine (engine.addFuture.2.withLoop
      (·.watch watch (.release engine.loop.futures.length))) :=
    ⟨Loop.now_watch .., fun _ member => (Loop.timers_watch ..).symm ▸ member,
      fun punctual => ⟨punctual.loop.addFuture.watch
        (fun same => punctual.ne_length (Handle.release.inj same).symm) watch, punctual.gate,
        punctual.requests⟩⟩
  exact noted.trans (timely_cancel _ watch)

end Engine

end InlineCompletion
