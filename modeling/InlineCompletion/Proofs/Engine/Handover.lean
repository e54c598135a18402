import InlineCompletion.Proofs.Engine.Requests

/-!
How a turn begins and ends: the loop takes its first handle, which releases a waiter or wakes a task,
and a task that has run waits again or ends. In between the task runs with what it goes on with.
-/

namespace InlineCompletion.Engine

open Loop (Stirred)

variable {engine : Engine} {touched : Nat → Prop} {running : Option (Nat × Outcome)}

/-! A release comes first. -/

theorem stirred_release {loop : Loop Phase} {waiter : Nat} {rest : List Handle}
    (first : loop.ready = .release waiter :: rest) (bare : loop.Bare waiter) (v : Value) :
    Stirred (fun _ => False) loop (({ loop with ready := rest }).settle waiter (.value v)) := by
  have calm : ∀ failure, Outcome.value v ≠ .failed failure := nofun
  have bare : ({ loop with ready := rest } : Loop Phase).Bare waiter := bare
  have settled : Stirred (fun _ => False) { loop with ready := rest }
      (({ loop with ready := rest }).settle waiter (.value v)) := Loop.stirred_settle bare calm nofun
  refine ⟨settled.length, settled.activity, settled.outcome, fun id other noted => ?_⟩
  rcases noted with watched | ready | ended
  · exact settled.noted id other (Or.inl watched)
  · rw [first] at ready
    rcases List.mem_cons.mp ready with same | later
    · cases same
      exact Or.inr (Or.inr (isDone_settle bare.1 _))
    · exact settled.noted id other (Or.inr (Or.inl later))
  · exact settled.noted id other (Or.inr (Or.inr ended))

theorem Coherent.release (coherent : engine.Coherent touched none) {waiter : Nat}
    {rest : List Handle} (first : engine.loop.ready = .release waiter :: rest) :
    (({ engine with loop := { engine.loop with ready := rest } } : Engine).withLoop
      (·.settle waiter (.value .nothing))).Coherent touched none := by
  have calm : ∀ failure, Outcome.value .nothing ≠ .failed failure := nofun
  have bare : engine.loop.Bare waiter :=
    coherent.sound.readyReleases waiter (first ▸ List.mem_cons_self ..)
  have dropped := coherent.sound.drop_release first
  exact coherent.stirred (stirred_release first bare .nothing) (dropped.settle bare calm)
    (none_fresh fun task => Loop.activity?_settle ..) fun _ _ _ _ => Blamed.of_nobody ..

/-! Steps of the loop that change who runs. -/

theorem Coherent.reloop {after : Option (Nat × Outcome)} {loop : Loop Phase}
    (coherent : engine.Coherent touched running)
    (tended : Tended (fun _ => False) (fun _ => False) running after engine { engine with loop })
    (sound : loop.Sound (after.map Prod.fst))
    (apart : ∀ first second activity other belonging, loop.Unfinished first activity →
      loop.Unfinished second other → belonging ∈ activity.phase.belongings →
      belonging ∈ other.phase.belongings → first = second)
    (fits : ∀ task activity, loop.Unfinished task activity → after.map Prod.fst ≠ some task →
      ({ engine with loop } : Engine).Fits touched after task activity) :
    ({ engine with loop } : Engine).Coherent touched after where
  sound := sound
  gate := fun waiter member => tended.bare waiter (coherent.gate waiter member)
  open_gate := coherent.open_gate
  requests := by
    intro id request found
    obtain ⟨waiters, attached, halted⟩ := coherent.requests id request found
    exact ⟨fun waiter member => tended.bare waiter (waiters waiter member), attached, halted⟩
  streams := by
    intro id stream found
    obtain ⟨reported, aborted, closed, pending⟩ := coherent.streams id stream found
    exact ⟨reported, aborted, closed, fun read known => tended.does _ read (pending read known)⟩
  activeStreams := coherent.activeStreams
  calls := fun call member => tended.does _ call (coherent.calls call member)
  apart := apart
  fits := fits

theorem Doing.same_loop {new : Engine} {errand : Errand} {activity : Activity Phase}
    (doing : engine.Doing errand activity) (requests : new.requests = engine.requests)
    (pending : ∀ id, new.loop.isPending id = true → engine.loop.isPending id = true) :
    new.Doing errand activity := by
  cases errand with
  | watch id =>
    refine doing.imp_right fun ⟨phase, waits⟩ => ⟨phase, fun waiter same still => ?_⟩
    rw [requests]
    exact waits waiter same (pending waiter still)
  | answer => exact doing
  | pull id => exact doing

theorem Tended.of_loop {before after : Option (Nat × Outcome)} {loop : Loop Phase}
    (bare : ∀ id, engine.loop.Bare id → loop.Bare id)
    (pending : ∀ id, loop.isPending id = true → engine.loop.isPending id = true)
    (noted : ∀ id waiter, engine.loop.Noted id waiter → loop.Noted id waiter)
    (does : ∀ errand task, engine.Does errand task → ({ engine with loop } : Engine).Does errand task)
    (calm : ∀ request task failure, engine.Does (.watch request) task →
      loop.outcome? task = some (.failed failure) → engine.loop.outcome? task = some (.failed failure))
    (hits : ∀ errand task, engine.Does errand task → loop.Struck after task →
      engine.loop.Struck before task)
    (spent : ∀ request task, engine.Does (.watch request) task →
      engine.loop.isDone task = true ∨ engine.loop.Struck before task →
      loop.isDone task = true ∨ loop.Struck after task) :
    Tended (fun _ => False) (fun _ => False) before after engine { engine with loop } where
  bare := bare
  noted := noted
  does := does
  calm := calm
  hits := fun errand task does hit => Or.inl (hits errand task does hit)
  spent := spent
  held := by
    intro activity held
    obtain ⟨waiter, waits, alone, gate⟩ := held
    exact ⟨waiter, waits, bare waiter alone, fun still => gate (pending waiter still)⟩
  size := Nat.le_refl _
  requests := fun _ request found _ => ⟨request, found, rfl, rfl⟩
  activeCalls := fun _ member _ => member
  abortedCalls := fun _ member _ => member
  streams := fun _ stream found _ => ⟨stream, found, rfl, id⟩

/-! A task is woken. -/

theorem roused_of_incoming {activity : Activity Phase}
    (cancelled : engine.incoming activity = .cancelled) : engine.loop.Roused activity := by
  unfold incoming at cancelled
  split at cancelled
  · next requested => exact Or.inl requested
  · cases waits : activity.waitingFor with
    | none => simp [waits] at cancelled
    | some target =>
      refine Or.inr ⟨target, waits, ?_⟩
      cases ended : engine.loop.outcome? target with
      | none => simp [waits, ended] at cancelled
      | some outcome => simpa [waits, ended] using cancelled

theorem incoming_of_roused {activity : Activity Phase} (roused : engine.loop.Roused activity) :
    engine.incoming activity = .cancelled := by
  unfold incoming
  rcases roused with requested | ⟨target, waits, ended⟩
  · simp [requested]
  · simp [waits, ended]

/-- A task goes on with a piece only if what it waited for ended with that. -/
theorem outcome?_of_incoming {activity : Activity Phase} {target : Nat} {t : Text}
    (waits : activity.waitingFor = some target) (piece : engine.incoming activity = .value (.text t)) :
    engine.loop.outcome? target = some (.value (.text t)) := by
  unfold incoming at piece
  rw [waits, Option.bind_some] at piece
  split at piece
  · cases piece
  · cases ended : engine.loop.outcome? target with
    | none =>
      rw [ended] at piece
      cases piece
    | some outcome =>
      rw [ended] at piece
      exact congrArg some piece

theorem Doing.wake {new : Engine} {errand : Errand} {activity : Activity Phase}
    (doing : engine.Doing errand activity) : new.Doing errand { phase := activity.phase } := by
  cases errand with
  | watch id => exact doing.imp_right fun ⟨phase, _⟩ => ⟨phase, nofun⟩
  | answer => exact doing
  | pull id => exact doing

theorem tended_wake {task : Nat} {rest : List Handle} {activity : Activity Phase}
    (known : engine.loop.Unfinished task activity)
    (first : engine.loop.ready = .wake task :: rest) :
    Tended (fun _ => False) (fun _ => False) none (some (task, engine.incoming activity)) engine
      { engine with loop := engine.loop.wakeFirst rest task activity.phase } := by
  have outcome := engine.loop.outcome?_wakeFirst rest task activity.phase
  have isDone := engine.loop.isDone_wakeFirst rest task activity.phase
  have pending := engine.loop.isPending_wakeFirst rest task activity.phase
  have unfinished := Loop.unfinished_wakeFirst rest known activity.phase
  apply Tended.of_loop
  case bare => exact fun id => (Loop.bare_wakeFirst known activity.phase id).mpr
  case pending => exact fun id still => (pending id).symm.trans still
  case noted =>
    intro id waiter noted
    unfold Loop.Noted at noted ⊢
    rw [first] at noted
    rw [isDone, Loop.watchers_wakeFirst]
    refine noted.imp_right (Or.imp_left fun member => ?_)
    rcases List.mem_cons.mp member with same | later
    · cases same
    · exact later
  case does =>
    intro errand other given
    obtain ⟨⟨found, there⟩, doing⟩ := given
    refine ⟨?_, fun next unfinished' => ?_⟩
    · show ∃ next, (engine.loop.wakeFirst rest task activity.phase).activity? other = some next
      unfold Loop.wakeFirst
      rw [Loop.activity?_setActivity]
      split
      · exact ⟨_, rfl⟩
      · exact ⟨found, there⟩
    · rcases (unfinished other next).mp unfinished' with ⟨rfl, rfl⟩ | ⟨-, old⟩
      · exact (doing activity known).wake
      · exact (doing next old).same_loop rfl fun id still => (pending id).symm.trans still
  case calm => exact fun _ other failure _ failed => (outcome other).symm.trans failed
  case hits =>
    intro errand other _ hit
    by_cases mine : other = task
    · subst mine
      refine Or.inr (Or.inr ⟨activity, known, ?_⟩)
      rcases hit with runs | ended | ⟨found, unfinished', roused⟩
      · simp only [Option.some.injEq, Prod.mk.injEq] at runs
        exact roused_of_incoming runs.2
      · cases known.2.symm.trans ((outcome other).symm.trans ended)
      · rcases (unfinished other found).mp unfinished' with ⟨-, rfl⟩ | ⟨different, -⟩
        · rcases roused with requested | ⟨target, waits, -⟩
          · cases requested
          · cases waits
        · exact absurd rfl different
    · refine hit.mono (fun runs => ?_) (fun id ended => (outcome id).symm.trans ended) fun found rests => ?_
      · simp only [Option.some.injEq, Prod.mk.injEq] at runs
        exact absurd runs.1.symm mine
      · exact (((unfinished other found).mp rests).resolve_left fun here => mine here.1).2
  case spent =>
    intro request other _ either
    rcases either with ended | hit
    · exact Or.inl ((isDone other).trans ended)
    · right
      by_cases mine : other = task
      · subst mine
        rcases hit with runs | ended | ⟨found, old, roused⟩
        · cases runs
        · cases known.2.symm.trans ended
        · cases known.unique old
          exact Or.inl (by rw [incoming_of_roused roused])
      · exact hit.mono nofun (fun id ended => (outcome id).trans ended) fun found old =>
          (unfinished other found).mpr (Or.inr ⟨mine, old⟩)

theorem Coherent.wake (coherent : engine.Coherent touched none) {task : Nat} {rest : List Handle}
    (first : engine.loop.ready = .wake task :: rest) {activity : Activity Phase}
    (known : engine.loop.Unfinished task activity) :
    ({ engine with loop := engine.loop.wakeFirst rest task activity.phase } : Engine).Coherent
      touched (some (task, engine.incoming activity)) := by
  obtain ⟨found, known', -, sound⟩ := Loop.Sound.wake coherent.sound first
  cases known.unique known'
  have tended := tended_wake known first
  have unfinished := Loop.unfinished_wakeFirst rest known activity.phase
  have phase {other : Nat} {next : Activity Phase}
      (here : (engine.loop.wakeFirst rest task activity.phase).Unfinished other next) :
      ∃ before, engine.loop.Unfinished other before ∧ before.phase = next.phase := by
    rcases (unfinished other next).mp here with ⟨rfl, rfl⟩ | ⟨-, old⟩
    · exact ⟨activity, known, rfl⟩
    · exact ⟨next, old, rfl⟩
  refine coherent.reloop tended sound ?_ ?_
  · intro one two next other belonging here there mine mine'
    obtain ⟨before, old, same⟩ := phase here
    obtain ⟨before', old', same'⟩ := phase there
    exact coherent.apart one two before before' belonging old old' (same ▸ mine) (same' ▸ mine')
  · intro other next here others
    rcases (unfinished other next).mp here with ⟨rfl, -⟩ | ⟨-, old⟩
    · exact absurd rfl others
    · refine tended.fits (coherent.fits other next old nofun) (fun _ _ => id) rfl rfl Or.inl ?_
        (Blamed.of_nobody ..)
      intro _ _ _ either
      rcases either with requested | ⟨target, waits, ended⟩
      · exact Or.inl (Or.inl requested)
      · exact Or.inl (Or.inr ⟨target, waits, (Loop.outcome?_wakeFirst ..).symm.trans ended⟩)

/-! A task waits again. -/

theorem tended_park {task target : Nat} {outcome : Outcome} {phase : Phase}
    {activity : Activity Phase} (known : engine.loop.Unfinished task activity)
    (pending : engine.loop.isPending target = true)
    (keeps : ∀ errand, engine.Does errand task →
      engine.Doing errand { phase, waitingFor := some target })
    (heeds : ∀ request, engine.Does (.watch request) task →
      ¬engine.loop.Struck (some (task, outcome)) task) :
    Tended (fun _ => False) (fun _ => False) (some (task, outcome)) none engine
      (engine.withLoop (·.park task phase target)) := by
  have same (id : Nat) : (engine.loop.park task phase target).outcome? id =
      engine.loop.outcome? id := Loop.outcome?_park ..
  have isDone (id : Nat) : (engine.loop.park task phase target).isDone id =
      engine.loop.isDone id := by
    unfold Loop.isDone
    rw [same]
  have isPending (id : Nat) : (engine.loop.park task phase target).isPending id =
      engine.loop.isPending id := Loop.isPending_congr (Loop.length_park ..) (same id)
  have unfinished := Loop.unfinished_park known phase target
  apply Tended.of_loop
  case bare => exact fun id => (Loop.bare_park known phase target id).mpr
  case pending => exact fun id still => (isPending id).symm.trans still
  case noted =>
    intro id waiter either
    rcases either with watched | ready | ended
    · refine Or.inl ?_
      rw [Loop.watchers_park pending]
      split
      · next here => exact List.mem_append_left _ (here ▸ watched)
      · exact watched
    · refine Or.inr (Or.inl ?_)
      rwa [Loop.ready_park pending]
    · exact Or.inr (Or.inr ((isDone waiter).trans ended))
  case does =>
    intro errand other given
    obtain ⟨⟨found, there⟩, doing⟩ := given
    refine ⟨?_, fun next here => ?_⟩
    · show ∃ next, (engine.loop.park task phase target).activity? other = some next
      unfold Loop.park
      rw [Loop.activity?_watch, Loop.activity?_setActivity]
      split
      · exact ⟨_, rfl⟩
      · exact ⟨found, there⟩
    · have doing : engine.Doing errand next := by
        rcases (unfinished other next).mp here with ⟨rfl, rfl⟩ | ⟨-, old⟩
        · exact keeps errand ⟨⟨found, there⟩, doing⟩
        · exact doing next old
      exact doing.same_loop rfl fun id still => (isPending id).symm.trans still
  case calm => exact fun _ other failure _ failed => (same other).symm.trans failed
  case hits =>
    intro errand other _ hit
    by_cases mine : other = task
    · subst mine
      rcases hit with runs | ended | ⟨found, here, roused⟩
      · cases runs
      · cases known.2.symm.trans ((same other).symm.trans ended)
      · rcases (unfinished other found).mp here with ⟨-, rfl⟩ | ⟨different, -⟩
        · rcases roused with requested | ⟨waiter, waits, ended⟩
          · cases requested
          · cases waits
            have unsettled := ((Loop.isPending_iff _ target).mp pending).2
            cases unsettled.symm.trans ((same target).symm.trans ended)
        · exact absurd rfl different
    · refine hit.mono nofun (fun id ended => (same id).symm.trans ended) fun found rests => ?_
      exact (((unfinished other found).mp rests).resolve_left fun here => mine here.1).2
  case spent =>
    intro request other does either
    rcases either with ended | hit
    · exact Or.inl ((isDone other).trans ended)
    · by_cases mine : other = task
      · exact absurd (mine ▸ hit) (heeds request (mine ▸ does))
      · refine Or.inr (hit.mono (fun runs => ?_) (fun id ended => (same id).trans ended) fun found old =>
          (unfinished other found).mpr (Or.inr ⟨mine, old⟩))
        simp only [Option.some.injEq, Prod.mk.injEq] at runs
        exact absurd runs.1.symm mine

/-- The task waits for something pending that nobody else waits for, and for what its phase names. -/
theorem Coherent.park {task target : Nat} {outcome : Outcome} {phase : Phase}
    (coherent : engine.Coherent touched (some (task, outcome)))
    (pending : engine.loop.isPending target = true)
    (free : ∀ other found, engine.loop.Unfinished other found → found.waitingFor ≠ some target)
    (keeps : ∀ errand, engine.Does errand task →
      engine.Doing errand { phase, waitingFor := some target })
    (heeds : ∀ request, engine.Does (.watch request) task →
      ¬engine.loop.Struck (some (task, outcome)) task)
    (apart : ∀ other found belonging, engine.loop.Unfinished other found → other ≠ task →
      belonging ∈ phase.belongings → belonging ∉ found.phase.belongings)
    (fits : engine.Fits touched (some (task, outcome)) task { phase, waitingFor := some target }) :
    (engine.withLoop (·.park task phase target)).Coherent touched none := by
  obtain ⟨activity, known, idle⟩ := coherent.sound.runs task rfl
  have tended := tended_park known pending keeps heeds
  have unfinished := Loop.unfinished_park known phase target
  have same {next : Activity Phase} (roused :
      (engine.loop.park task phase target).Roused next) : engine.loop.Roused next :=
    roused.mono fun _ _ ended => (Loop.outcome?_park ..).symm.trans ended
  refine coherent.reloop tended (coherent.sound.park pending free phase) ?_ ?_
  · intro one two next other belonging here there mine mine'
    rcases (unfinished one next).mp here with ⟨rfl, rfl⟩ | ⟨different, old⟩
    · rcases (unfinished two other).mp there with ⟨rfl, -⟩ | ⟨different, old⟩
      · rfl
      · exact absurd mine' (apart two other belonging old different mine)
    · rcases (unfinished two other).mp there with ⟨rfl, rfl⟩ | ⟨different', old'⟩
      · exact absurd mine (apart one next belonging old different mine')
      · exact coherent.apart one two next other belonging old old' mine mine'
  · intro other next here _
    rcases (unfinished other next).mp here with ⟨rfl, rfl⟩ | ⟨different, old⟩
    · exact tended.fits fits (fun _ _ => id) rfl rfl Or.inl
        (fun _ _ _ roused => Or.inl (same roused)) (Blamed.of_nobody ..)
    · have others : (some (task, outcome)).map Prod.fst ≠ some other := by
        simpa using Ne.symm different
      exact tended.fits (coherent.fits other next old others) (fun _ _ => id) rfl rfl Or.inl
        (fun _ _ _ roused => Or.inl (same roused)) (Blamed.of_nobody ..)

/-! A task ends. -/

theorem tended_finish {task : Nat} {outcome result : Outcome} {activity : Activity Phase}
    (coherent : engine.Coherent touched (some (task, outcome)))
    (known : engine.loop.Unfinished task activity)
    (calm : ∀ request failure, engine.Does (.watch request) task → result ≠ .failed failure)
    (heeds : ∀ errand, engine.Does errand task → result = .cancelled → outcome = .cancelled) :
    Tended (fun _ => False) (fun _ => False) (some (task, outcome)) none engine
      (engine.withLoop (·.settle task result)) := by
  have same (id : Nat) : (engine.loop.settle task result).outcome? id =
      if id = task then some result else engine.loop.outcome? id := by
    rw [Loop.outcome?_settle]
    simp [known.pending]
  have keeps {id : Nat} {o : Outcome} (ended : engine.loop.outcome? id = some o) :
      (engine.loop.settle task result).outcome? id = some o := by
    rw [same]
    split
    · next here =>
      subst here
      cases known.2.symm.trans ended
    · exact ended
  have isPending (id : Nat) (still : (engine.loop.settle task result).isPending id = true) :
      engine.loop.isPending id = true := by
    rw [Loop.isPending_iff, same, Loop.length_settle] at still
    split at still
    · cases still.2
    · exact (Loop.isPending_iff _ id).mpr still
  have unfinished := Loop.unfinished_finish known result
  apply Tended.of_loop
  case bare => exact fun id => (Loop.bare_settle task id result).mpr
  case pending => exact isPending
  case noted => exact fun id waiter => Loop.noted_settle task result
  case does =>
    intro errand other given
    obtain ⟨⟨found, there⟩, doing⟩ := given
    refine ⟨⟨found, (Loop.activity?_settle ..).trans there⟩, fun next here => ?_⟩
    exact (doing next ((unfinished other next).mp here).2).same_loop rfl isPending
  case calm =>
    intro request other failure does failed
    have failed := (same other).symm.trans failed
    split at failed
    · next here => exact absurd (Option.some.inj failed) (calm request failure (here ▸ does))
    · exact failed
  case hits =>
    intro errand other does hit
    rcases hit with runs | ended | ⟨found, here, roused⟩
    · cases runs
    · have before := (same other).symm.trans ended
      split at before
      · next here =>
        have cancelled := heeds errand (here ▸ does) (Option.some.inj before)
        exact Or.inl (by rw [here, cancelled])
      · exact Or.inr (Or.inl before)
    · have old := ((unfinished other found).mp here).2
      refine Or.inr (Or.inr ⟨found, old, roused.mono fun waiter waits ended => ?_⟩)
      -- Whoever does an errand waits for a bare future, which the task is not.
      have bare := Does.leaf coherent does found waiter old waits
      have ended := (same waiter).symm.trans ended
      rwa [if_neg (known.ne_of_bare bare).symm] at ended
  case spent =>
    intro request other _ either
    by_cases mine : other = task
    · rw [mine]
      exact Or.inl (isDone_settle known.lt result)
    · rcases either with ended | hit
      · exact Or.inl (Loop.isDone_settle_of_isDone task result ended)
      · refine Or.inr (hit.mono (fun runs => ?_) (fun _ => keeps) fun found old =>
          (unfinished other found).mpr ⟨mine, old⟩)
        simp only [Option.some.injEq, Prod.mk.injEq] at runs
        exact absurd runs.1.symm mine

/-- A task that was not cancelled does not end so, as far as anyone waits for it. -/
theorem Coherent.finish {task : Nat} {outcome result : Outcome}
    (coherent : engine.Coherent touched (some (task, outcome)))
    (calm : ∀ request failure, engine.Does (.watch request) task → result ≠ .failed failure)
    (heeds : ∀ errand, engine.Does errand task → result = .cancelled → outcome = .cancelled) :
    (engine.withLoop (·.settle task result)).Coherent touched none := by
  obtain ⟨activity, known, idle⟩ := coherent.sound.runs task rfl
  have tended := tended_finish coherent known calm heeds
  have unfinished := Loop.unfinished_finish known result
  refine coherent.reloop tended (coherent.sound.finish result) ?_ ?_
  · intro one two next other belonging here there
    exact coherent.apart one two next other belonging ((unfinished one next).mp here).2
      ((unfinished two other).mp there).2
  · intro other next here _
    obtain ⟨different, old⟩ := (unfinished other next).mp here
    have others : (some (task, outcome)).map Prod.fst ≠ some other := by
      simpa using Ne.symm different
    refine tended.fits (coherent.fits other next old others) (fun _ _ => id) rfl rfl Or.inl ?_
      (Blamed.of_nobody ..)
    intro waiter waits bare roused
    refine Or.inl (roused.mono fun target waits' ended => ?_)
    cases waits.symm.trans waits'
    have ended : (engine.loop.settle task result).outcome? waiter = some .cancelled := ended
    rwa [Loop.outcome?_settle, if_neg fun here => known.ne_of_bare bare here.1.symm] at ended

end InlineCompletion.Engine
