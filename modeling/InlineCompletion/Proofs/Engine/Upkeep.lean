import InlineCompletion.Proofs.Engine.Coherent

/-!
The operations of the engine keep its state coherent, one by one. Those on the loop strike at most
the tasks that they name; the others leave the loop alone and change only what is their own.
-/

namespace InlineCompletion.Engine

open Loop (Stirred Grown Cancelled)

variable {engine : Engine} {touched struck : Nat → Prop} {running : Option (Nat × Outcome)}

/-! Steps of the loop. -/

theorem Doing.stirred {loop : Loop Phase} (stirred : Stirred struck engine.loop loop)
    {errand : Errand} {found activity : Activity Phase} (doing : engine.Doing errand found)
    (phase : activity.phase = found.phase) (waiting : activity.waitingFor = found.waitingFor)
    (targets : ∀ target, found.waitingFor = some target → target < engine.loop.futures.length) :
    ({ engine with loop } : Engine).Doing errand activity := by
  cases errand with
  | watch id =>
    rcases doing with start | ⟨watching, known⟩
    · exact Or.inl (phase.trans start)
    · refine Or.inr ⟨phase.trans watching, fun waiter waits pending => ?_⟩
      rw [waiting] at waits
      exact known waiter waits (stirred.isPending (targets waiter waits) pending)
  | answer =>
    rcases doing with ⟨call, start⟩ | ⟨reply, answering⟩
    · exact Or.inl ⟨call, phase.trans start⟩
    · exact Or.inr ⟨reply, phase.trans answering⟩
  | pull id => exact doing.imp phase.trans phase.trans

theorem Does.stirred {current : Option Nat} (sound : engine.loop.Sound current)
    {loop : Loop Phase} (stirred : Stirred struck engine.loop loop) {errand : Errand} {task : Nat}
    (does : engine.Does errand task) : ({ engine with loop } : Engine).Does errand task := by
  obtain ⟨⟨activity, known⟩, doing⟩ := does
  have inside := Loop.lt_of_activity? _ known
  refine ⟨?_, fun found unfinished => ?_⟩
  · rcases stirred.activity task inside with same | ⟨-, told⟩
    · exact ⟨activity, same.trans known⟩
    · exact ⟨_, told.trans (by rw [known]; rfl)⟩
  · obtain ⟨before, unfinished', phase, waiting, -⟩ := stirred.before inside unfinished
    exact (doing before unfinished').stirred stirred phase waiting
      fun target waits => sound.target_lt unfinished' waits

theorem Tended.stirred {current : Option Nat} (sound : engine.loop.Sound current)
    {loop : Loop Phase} (stirred : Stirred struck engine.loop loop) :
    Tended (fun _ => False) struck running running engine { engine with loop } where
  bare := fun _ => stirred.bare
  noted := stirred.noted
  does := fun _ _ does => does.stirred sound stirred
  calm := by
    intro request task failure does failed
    obtain ⟨⟨activity, known⟩, -⟩ := does
    exact (stirred.task known).symm.trans failed
  hits := by
    intro errand task does hit
    obtain ⟨⟨activity, known⟩, -⟩ := does
    exact stirred.struck_before sound known hit
  spent := fun _ _ _ => Or.imp stirred.isDone stirred.struck_after
  held := by
    intro activity given
    obtain ⟨waiter, waits, bare, gate⟩ := given
    exact ⟨waiter, waits, stirred.bare bare, fun pending => gate (stirred.isPending bare.1 pending)⟩
  size := Nat.le_refl _
  requests := fun _ request found _ => ⟨request, found, rfl, rfl⟩
  activeCalls := fun _ member _ => member
  abortedCalls := fun _ member _ => member
  streams := fun _ stream found _ => ⟨stream, found, rfl, id⟩

theorem Orderly.stirred {current : Option Nat} (sound : engine.loop.Sound current)
    {loop : Loop Phase} (stirred : Stirred struck engine.loop loop) {id : Nat} {stream : Stream}
    (orderly : engine.Orderly id stream) : ({ engine with loop } : Engine).Orderly id stream where
  reported := orderly.reported
  aborted := orderly.aborted
  closed := orderly.closed
  pending := fun read pending => (orderly.pending read pending).stirred sound stirred

theorem Coherent.stirred (coherent : engine.Coherent touched running) {loop : Loop Phase}
    (stirred : Stirred struck engine.loop loop) (sound : loop.Sound (running.map Prod.fst))
    (fresh : ∀ task activity, loop.Unfinished task activity → engine.loop.futures.length ≤ task →
      ∃ job, activity.phase = .start job ∧ engine.Internal job ∧ activity.waitingFor = none ∧
        activity.cancelRequested = false)
    (blamed : ∀ task activity, engine.loop.Unfinished task activity →
      running.map Prod.fst ≠ some task → engine.Blamed touched struck task activity) :
    ({ engine with loop } : Engine).Coherent touched running where
  sound := sound
  gate := fun waiter member => stirred.bare (coherent.gate waiter member)
  open_gate := coherent.open_gate
  requests := by
    intro id request found
    obtain ⟨waiters, attached, halted⟩ := coherent.requests id request found
    exact ⟨fun waiter member => stirred.bare (waiters waiter member), attached, halted⟩
  streams := fun id stream found => (coherent.streams id stream found).stirred coherent.sound stirred
  activeStreams := coherent.activeStreams
  calls := fun call member => (coherent.calls call member).stirred coherent.sound stirred
  apart := by
    intro first second activity other belonging unfinished unfinished' mine mine'
    have inside {task : Nat} {found : Activity Phase} (unfinished : loop.Unfinished task found)
        (mine : belonging ∈ found.phase.belongings) : task < engine.loop.futures.length := by
      refine Nat.lt_of_not_le fun outside => ?_
      obtain ⟨job, phase, -⟩ := fresh task found unfinished outside
      rw [phase] at mine
      cases mine
    obtain ⟨before, known, phase, -⟩ := stirred.before (inside unfinished mine) unfinished
    obtain ⟨before', known', phase', -⟩ := stirred.before (inside unfinished' mine') unfinished'
    exact coherent.apart first second before before' belonging known known' (phase ▸ mine)
      (phase' ▸ mine')
  fits := by
    intro task activity unfinished others
    by_cases inside : task < engine.loop.futures.length
    · obtain ⟨before, known, phase, waiting, requested⟩ := stirred.before inside unfinished
      refine (Tended.stirred coherent.sound stirred).fits (coherent.fits task before known others)
        (fun _ _ => id) phase waiting requested ?_ ?_
      · intro _ _ _ either
        rcases either with told | ⟨target, waits, ended⟩
        · exact (requested told).imp_left Or.inl
        · rw [waiting] at waits
          exact (stirred.cancelled coherent.sound known waits ended).imp_left
            fun ended => Or.inr ⟨target, waits, ended⟩
      · obtain ⟨wanted, watch, call, read⟩ := blamed task before known others
        exact ⟨wanted, watch, call, read⟩
    · obtain ⟨job, phase, internal, idle, unasked⟩ :=
        fresh task activity unfinished (Nat.le_of_not_lt inside)
      refine .start job phase (internal.of_le (Nat.le_refl _)) idle fun _ asked => ?_
      cases unasked.symm.trans asked

theorem Blamed.of_nobody (engine : Engine) (touched : Nat → Prop) (task : Nat)
    (activity : Activity Phase) : engine.Blamed touched (fun _ => False) task activity :=
  ⟨False.elim, fun _ _ _ => id, fun _ _ _ => False.elim, fun _ _ _ _ _ _ _ => False.elim⟩

/-- No task is new where there are no more tasks than before. -/
theorem none_fresh {loop : Loop Phase}
    (same : ∀ task, loop.activity? task = engine.loop.activity? task) (task : Nat)
    (activity : Activity Phase) (unfinished : loop.Unfinished task activity)
    (outside : engine.loop.futures.length ≤ task) :
    ∃ job, activity.phase = .start job ∧ engine.Internal job ∧ activity.waitingFor = none ∧
      activity.cancelRequested = false := by
  have found := (same task).symm.trans unfinished.1
  rw [Loop.activity?_of_length_le _ outside] at found
  cases found

theorem Coherent.grown (coherent : engine.Coherent touched running) {loop : Loop Phase}
    (grown : Grown engine.loop loop) : ({ engine with loop } : Engine).Coherent touched running :=
  coherent.stirred grown.stirred (coherent.sound.grown grown) (none_fresh grown.activity)
    fun _ _ _ _ => Blamed.of_nobody ..

theorem Coherent.addFuture (coherent : engine.Coherent touched running) :
    engine.addFuture.2.Coherent touched running :=
  coherent.grown (Loop.grown_addFuture engine.loop)

theorem Coherent.settle (coherent : engine.Coherent touched running) {id : Nat}
    (bare : engine.loop.Bare id) (v : Value) :
    (engine.withLoop (·.settle id (.value v))).Coherent touched running := by
  have calm : ∀ failure, Outcome.value v ≠ .failed failure := nofun
  have stirred : Stirred (fun _ => False) engine.loop (engine.loop.settle id (.value v)) :=
    Loop.stirred_settle bare calm nofun
  exact coherent.stirred stirred (coherent.sound.settle bare calm)
    (none_fresh fun task => Loop.activity?_settle ..) fun _ _ _ _ => Blamed.of_nobody ..

/-- All those who wait go on with the same value. -/
theorem Coherent.settleAll (coherent : engine.Coherent touched running) {waiters : List Nat}
    (bare : ∀ waiter ∈ waiters, engine.loop.Bare waiter) (v : Value) :
    (engine.withLoop fun loop => waiters.foldl (fun l waiter => l.settle waiter (.value v)) loop)
      |>.Coherent touched running := by
  induction waiters generalizing engine with
  | nil => exact coherent
  | cons waiter rest ih =>
    have first := coherent.settle (bare waiter (List.mem_cons_self ..)) v
    refine ih first fun other member => ?_
    exact (Loop.bare_settle waiter other _).mpr (bare other (List.mem_cons_of_mem _ member))

theorem Coherent.spawn (coherent : engine.Coherent touched running) {job : Job}
    (internal : engine.Internal job) : (engine.spawn job).2.Coherent touched running := by
  refine coherent.stirred (Loop.stirred_spawn engine.loop (.start job))
    (coherent.sound.spawn (.start job)) ?_ fun _ _ _ _ => Blamed.of_nobody ..
  intro task activity unfinished outside
  have unfinished : (engine.loop.spawn (.start job)).2.Unfinished task activity := unfinished
  rcases (Loop.unfinished_spawn (.start job) task activity).mp unfinished with ⟨-, rfl⟩ | known
  · exact ⟨job, rfl, internal, rfl, rfl⟩
  · exact absurd known.lt (Nat.not_lt_of_le outside)

/-- Whoever is on the chain of waits must have been wanted cancelled. -/
theorem Coherent.cancel (coherent : engine.Coherent touched running) {root : Nat}
    {activity : Activity Phase} (known : engine.loop.activity? root = some activity)
    (blamed : ∀ task activity, engine.loop.Unfinished task activity →
      running.map Prod.fst ≠ some task →
      engine.Blamed touched (engine.loop.Chained root) task activity) :
    (engine.withLoop (·.cancel root)).Coherent touched running := by
  have step : Cancelled engine.loop root (engine.loop.cancel root) := Loop.cancelled_cancel root
  refine coherent.stirred (step.stirred coherent.sound known) (coherent.sound.cancelled step) ?_ blamed
  intro task found unfinished outside
  have inside := unfinished.lt
  rw [step.length] at inside
  exact absurd inside (Nat.not_lt_of_le outside)

/-! Steps that leave the loop alone. -/

/-- What waits in the loop finds the rest as it was, but for what is the step's own. -/
structure Rearranged (mine : Belonging → Prop) (old new : Engine) : Prop where
  loop : new.loop = old.loop
  gate : ∀ waiter ∈ old.client.gateWaiters, old.loop.isPending waiter = true →
    waiter ∈ new.client.gateWaiters
  requests : ∀ (id : Nat) (request : Request), old.requests[id]? = some request →
    ∃ found, new.requests[id]? = some found ∧
      (∀ waiter ∈ request.waiters, old.loop.isPending waiter = true → waiter ∈ found.waiters) ∧
      (¬mine (.request id) → found.call = request.call ∧ found.stream = request.stream)
  activeCalls : ∀ call ∈ old.client.activeCalls, ¬mine (.call call) →
    call ∈ new.client.activeCalls
  abortedCalls : ∀ call ∈ old.client.abortedCalls, ¬mine (.call call) →
    call ∈ new.client.abortedCalls
  streams : ∀ (id : Nat) (stream : Stream), old.streams[id]? = some stream →
    ∃ found, new.streams[id]? = some found ∧ (stream.aborted = true → found.aborted = true) ∧
      (¬mine (.stream id) → found.pending = stream.pending)
  events : ∀ event ∈ old.events, event ∈ new.events

namespace Rearranged

variable {mine : Belonging → Prop} {old new : Engine}

theorem does (step : Rearranged mine old new) {errand : Errand} {task : Nat}
    (does : old.Does errand task) : new.Does errand task := by
  unfold Does at does ⊢
  rw [step.loop]
  refine ⟨does.1, fun activity unfinished => ?_⟩
  have doing := does.2 activity unfinished
  cases errand with
  | watch id =>
    refine doing.imp_right fun ⟨watching, known⟩ => ⟨watching, fun waiter waits pending => ?_⟩
    rw [step.loop] at pending
    obtain ⟨request, found, member⟩ := known waiter waits pending
    obtain ⟨next, found', keeps, -⟩ := step.requests id request found
    exact ⟨next, found', keeps waiter member pending⟩
  | answer => exact doing
  | pull id => exact doing

theorem tended (step : Rearranged mine old new) :
    Tended mine (fun _ => False) running running old new where
  bare := fun _ bare => step.loop ▸ bare
  noted := fun _ _ noted => step.loop ▸ noted
  does := fun _ _ => step.does
  calm := fun _ _ _ _ failed => step.loop ▸ failed
  hits := fun _ _ _ hit => Or.inl (step.loop ▸ hit)
  spent := fun _ _ _ spent => step.loop ▸ spent
  held := by
    intro activity given
    obtain ⟨waiter, waits, bare, gate⟩ := given
    refine ⟨waiter, waits, step.loop ▸ bare, fun pending => ?_⟩
    rw [step.loop] at pending
    exact step.gate waiter (gate pending) pending
  size := by
    refine Nat.le_of_not_lt fun fewer => ?_
    obtain ⟨found, known, -⟩ := step.requests new.requests.length _
      (List.getElem?_eq_getElem fewer)
    exact Nat.lt_irrefl _ (List.getElem?_eq_some_iff.mp known).1
  requests := by
    intro id request found other
    obtain ⟨next, found', -, same⟩ := step.requests id request found
    exact ⟨next, found', same other⟩
  activeCalls := step.activeCalls
  abortedCalls := step.abortedCalls
  streams := by
    intro id stream found other
    obtain ⟨next, found', aborted, pending⟩ := step.streams id stream found
    exact ⟨next, found', pending other, aborted⟩

theorem proper (step : Rearranged mine old new) {request : Request} (proper : old.Proper request) :
    new.Proper request := by
  obtain ⟨waiters, attached, halted⟩ := proper
  refine ⟨fun waiter member => step.loop ▸ waiters waiter member, fun stream same => ?_,
    fun cancelled => ?_⟩
  · obtain ⟨found, known⟩ : ∃ found, old.streams[stream]? = some found :=
      ⟨_, List.getElem?_eq_getElem (attached stream same)⟩
    obtain ⟨next, known', -⟩ := step.streams stream found known
    exact (List.getElem?_eq_some_iff.mp known').1
  · obtain ⟨quiet, streams, calls⟩ := halted cancelled
    refine ⟨quiet, fun stream same => ?_, fun call free same => ?_⟩
    · obtain ⟨found, known, aborted⟩ := streams stream same
      obtain ⟨next, known', aborted', -⟩ := step.streams stream found known
      exact ⟨next, known', aborted' aborted⟩
    · exact step.events _ (calls call free same)

end Rearranged

theorem Coherent.rearranged {mine : Belonging → Prop} {new : Engine}
    (coherent : engine.Coherent touched running) (step : Rearranged mine engine new)
    (others : ∀ task activity, engine.loop.Unfinished task activity →
      running.map Prod.fst ≠ some task → ∀ belonging ∈ activity.phase.belongings, ¬mine belonging)
    (gate : ∀ waiter ∈ new.client.gateWaiters, engine.loop.Bare waiter)
    (open_gate : new.client.gateOpen = true → new.client.gateWaiters = [])
    (requests : ∀ (id : Nat) (request : Request), new.requests[id]? = some request →
      new.Proper request)
    (streams : ∀ (id : Nat) (stream : Stream), new.streams[id]? = some stream →
      new.Orderly id stream)
    (activeStreams : ∀ id ∈ new.client.activeStreams, id < new.streams.length)
    (calls : ∀ call ∈ new.client.activeCalls, engine.Does .answer call) :
    new.Coherent touched running where
  sound := step.loop ▸ coherent.sound
  gate := fun waiter member => step.loop ▸ gate waiter member
  open_gate := open_gate
  requests := requests
  streams := streams
  activeStreams := activeStreams
  calls := fun call member => step.does (calls call member)
  apart := by
    rw [step.loop]
    exact coherent.apart
  fits := by
    intro task activity unfinished other
    rw [step.loop] at unfinished
    refine step.tended.fits (coherent.fits task activity unfinished other)
      (others task activity unfinished other) rfl rfl Or.inl ?_ (Blamed.of_nobody ..)
    rw [step.loop]
    exact fun _ _ _ => Or.inl

/-! What the loop and those who wait do not look at. -/

/-- Nothing has changed but sources, orchestrators, events and what the client answers. -/
structure Alike (old new : Engine) : Prop where
  loop : new.loop = old.loop
  gateWaiters : new.client.gateWaiters = old.client.gateWaiters
  open_gate : new.client.gateOpen = true → old.client.gateOpen = true
  activeCalls : new.client.activeCalls = old.client.activeCalls
  abortedCalls : new.client.abortedCalls = old.client.abortedCalls
  activeStreams : new.client.activeStreams = old.client.activeStreams
  requests : new.requests = old.requests
  streams : new.streams.map Stream.shell = old.streams.map Stream.shell
  events : ∀ event ∈ old.events, event ∈ new.events

namespace Alike

variable {old new : Engine}

theorem trans {last : Engine} (first : Alike old new) (second : Alike new last) : Alike old last where
  loop := second.loop.trans first.loop
  gateWaiters := second.gateWaiters.trans first.gateWaiters
  open_gate := first.open_gate ∘ second.open_gate
  activeCalls := second.activeCalls.trans first.activeCalls
  abortedCalls := second.abortedCalls.trans first.abortedCalls
  activeStreams := second.activeStreams.trans first.activeStreams
  requests := second.requests.trans first.requests
  streams := second.streams.trans first.streams
  events := fun event member => second.events event (first.events event member)

/-- A stream of the one state is there in the other, perhaps with another source. -/
theorem stream (alike : Alike old new) {id : Nat} {stream : Stream}
    (found : old.streams[id]? = some stream) :
    ∃ other, new.streams[id]? = some other ∧ other.shell = stream.shell := by
  have same : (new.streams.map Stream.shell)[id]? = some stream.shell := by
    rw [alike.streams, List.getElem?_map, found]
    rfl
  rw [List.getElem?_map] at same
  exact Option.map_eq_some_iff.mp same

theorem symm_stream (alike : Alike old new) {id : Nat} {stream : Stream}
    (found : new.streams[id]? = some stream) :
    ∃ other, old.streams[id]? = some other ∧ stream.shell = other.shell := by
  have same : (old.streams.map Stream.shell)[id]? = some stream.shell := by
    rw [← alike.streams, List.getElem?_map, found]
    rfl
  rw [List.getElem?_map] at same
  obtain ⟨other, found', same'⟩ := Option.map_eq_some_iff.mp same
  exact ⟨other, found', same'.symm⟩

theorem rearranged (alike : Alike old new) : Rearranged (fun _ => False) old new where
  loop := alike.loop
  gate := fun _ member _ => alike.gateWaiters ▸ member
  requests := fun id request found =>
    ⟨request, alike.requests ▸ found, fun _ member _ => member, fun _ => ⟨rfl, rfl⟩⟩
  activeCalls := fun _ member _ => alike.activeCalls ▸ member
  abortedCalls := fun _ member _ => alike.abortedCalls ▸ member
  streams := by
    intro id stream found
    obtain ⟨other, found', same⟩ := alike.stream found
    obtain ⟨-, aborted, -, pending⟩ := Stream.of_shell_eq same
    exact ⟨other, found', aborted.trans, fun _ => pending⟩
  events := alike.events

end Alike

theorem Coherent.alike {new : Engine} (coherent : engine.Coherent touched running)
    (alike : Alike engine new) : new.Coherent touched running := by
  refine coherent.rearranged alike.rearranged (fun _ _ _ _ _ _ => id) ?_ ?_ ?_ ?_ ?_ ?_
  · rw [alike.gateWaiters]
    exact coherent.gate
  · rw [alike.gateWaiters]
    exact coherent.open_gate ∘ alike.open_gate
  · rw [alike.requests]
    exact fun id request found => alike.rearranged.proper (coherent.requests id request found)
  · intro id stream found
    obtain ⟨other, known, same⟩ := alike.symm_stream found
    obtain ⟨reported, aborted, closed, pending⟩ := coherent.streams id other known
    obtain ⟨reported', aborted', closed', pending'⟩ := Stream.of_shell_eq same
    refine ⟨reported'.trans reported, ?_, ?_, ?_⟩
    · rw [aborted', closed']
      exact aborted
    · rw [closed', alike.activeStreams]
      exact closed
    · rw [pending']
      exact fun read known => alike.rearranged.does (pending read known)
  · rw [alike.activeStreams]
    have length := congrArg List.length alike.streams
    rw [List.length_map, List.length_map] at length
    rw [length]
    exact coherent.activeStreams
  · rw [alike.activeCalls]
    exact coherent.calls

end InlineCompletion.Engine
