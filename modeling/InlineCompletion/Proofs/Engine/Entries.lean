import InlineCompletion.Proofs.Cache.KeyParts
import InlineCompletion.Proofs.Engine.Generations
import InlineCompletion.Proofs.Engine.Provenance

/-!
Which request made an entry of a cache. Every request that begins is entered on a list, and an entry
that was stored in the course of a run is a reply made fit for the place of the request on that list
which stored under its key last.
-/

namespace InlineCompletion

namespace Cache

variable {τ : Type} (cache : Cache τ) (key : Text)

theorem mem_of_mem_get [Clock τ] (now : τ) {kept : Text × CacheEntry τ}
    (member : kept ∈ (cache.get key now).2.entries) : kept ∈ cache.entries := by
  unfold get at member
  split at member
  · exact member
  · next entry found =>
    split at member
    · exact member
    · rcases (mem_touch cache key entry kept).mp member with ⟨before, -⟩ | rfl
      · exact before
      · exact mem_of_find cache key found

theorem mem_of_get [Clock τ] (now : τ) {entry : CacheEntry τ}
    (hit : (cache.get key now).1 = some entry) : (key, entry) ∈ cache.entries := by
  unfold get at hit
  split at hit
  · cases hit
  · next kept found =>
    split at hit
    · cases hit
    · cases hit
      exact mem_of_find cache key found

theorem mem_put (now : τ) (completion typed : Text) {kept : Text × CacheEntry τ}
    (member : kept ∈ (cache.put key now completion typed).entries) :
    (kept ∈ cache.entries ∧ kept.1 ≠ key) ∨ kept = (key, stamped now completion typed) :=
  (mem_touch cache key _ kept).mp (List.mem_of_mem_drop member)

end Cache

/-- The request makes such an entry of a reply. -/
structure Run.Makes (run : Run) (settings : Settings) (key : Text) (entry : CacheEntry Float) :
    Prop where
  keyed : run.key = some key
  typed : entry.typed = run.typed
  cleaned : ∃ raw, entry.completion = Reply.clean raw run.facts run.typed (run.existing settings)

namespace Engine

variable {engine old new last : Engine} {env : Environment} {run : Run} {author : Option Run}
  {told told' : List Event} {touched : Nat → Prop} {task orchestrator : Nat}

/-- The settings of an orchestrator and what its cache holds. -/
def stockOf (engine : Engine) (id : Nat) : Option (Settings × List (Text × CacheEntry Float)) :=
  (engine.orchestrators[id]?).map fun o => (o.settings, o.cache.entries)

/-- Whatever is new in the caches was made and stored by the author, if there is one. -/
structure Supplied (author : Option Run) (told : List Event) (old new : Engine) : Prop where
  events : new.events = old.events ++ told
  own : ∀ id request key, .stored id request key ∈ told →
    ∃ run ∈ author, id = run.orchestrator ∧ request = run.request
  stocks : ∀ id settings entries, new.stockOf id = some (settings, entries) →
    ∃ before, old.stockOf id = some (settings, before) ∧ ∀ key entry, (key, entry) ∈ entries →
      ((key, entry) ∈ before ∧ ∀ request, .stored id request key ∉ told) ∨
      ∃ run ∈ author, id = run.orchestrator ∧ .stored id run.request key ∈ told ∧
        run.Makes settings key entry

namespace Supplied

/-- Nothing is stored, and the caches stay as they are. -/
theorem of_stocks (events : new.events = old.events ++ told)
    (unstored : ∀ id request key, .stored id request key ∉ told)
    (stocks : ∀ id, new.stockOf id = old.stockOf id) : Supplied author told old new where
  events := events
  own := fun id request key member => absurd member (unstored id request key)
  stocks := fun id _ entries seated => ⟨entries, (stocks id).symm.trans seated,
    fun key _ member => Or.inl ⟨member, fun request => unstored id request key⟩⟩

theorem of_same (orchestrators : new.orchestrators = old.orchestrators)
    (events : new.events = old.events) : Supplied author [] old new := by
  refine of_stocks (by rw [events, List.append_nil]) (fun _ _ _ => nofun) fun id => ?_
  unfold stockOf
  rw [orchestrators]

theorem trans (first : Supplied author told old new) (second : Supplied author told' new last) :
    Supplied author (told ++ told') old last where
  events := by rw [second.events, first.events, List.append_assoc]
  own := fun id request key member => by
    rcases List.mem_append.mp member with early | late
    · exact first.own id request key early
    · exact second.own id request key late
  stocks := fun id settings entries seated => by
    obtain ⟨middle, seated', later⟩ := second.stocks id settings entries seated
    obtain ⟨before, seated'', earlier⟩ := first.stocks id settings middle seated'
    refine ⟨before, seated'', fun key entry member => ?_⟩
    rcases later key entry member with ⟨kept, none'⟩ | ⟨run, made, mine, stored, makes⟩
    · rcases earlier key entry kept with ⟨kept', none⟩ | ⟨run, made, mine, stored, makes⟩
      · refine Or.inl ⟨kept', fun request member => ?_⟩
        exact (List.mem_append.mp member).elim (none request) (none' request)
      · exact Or.inr ⟨run, made, mine, List.mem_append_left _ stored, makes⟩
    · exact Or.inr ⟨run, made, mine, List.mem_append_right _ stored, makes⟩

end Supplied

theorem supplied_emit (engine : Engine) (event : Event)
    (other : ∀ id request key, event ≠ .stored id request key) :
    Supplied author [event] engine (engine.emit event) :=
  .of_stocks rfl (fun id request key member =>
    other id request key (List.mem_singleton.mp member).symm) fun _ => rfl

theorem stockOf_modify {orchestrators : List Orchestrator} {id : Nat} {f : Orchestrator → Orchestrator}
    (same : ∀ o, (f o).settings = o.settings ∧ (f o).cache.entries = o.cache.entries) (other : Nat) :
    ((orchestrators.modify id f)[other]?).map (fun o => (o.settings, o.cache.entries)) =
      (orchestrators[other]?).map fun o => (o.settings, o.cache.entries) := by
  rw [getElem?_modify]
  split
  · simp [Function.comp_def, same]
  · rfl

theorem supplied_modifyOrchestrator (engine : Engine) (id : Nat) {f : Orchestrator → Orchestrator}
    (same : ∀ o, (f o).settings = o.settings ∧ (f o).cache.entries = o.cache.entries) :
    Supplied author [] engine (engine.modifyOrchestrator id f) :=
  .of_stocks (List.append_nil _).symm (fun _ _ _ => nofun) (stockOf_modify same)

/-- A cache may also lose entries. -/
theorem supplied_of_fewer (engine : Engine) (id : Nat) {f : Orchestrator → Orchestrator}
    (fewer : ∀ o, engine.orchestrators[id]? = some o → (f o).settings = o.settings ∧
      ∀ kept ∈ (f o).cache.entries, kept ∈ o.cache.entries) :
    Supplied author [] engine (engine.modifyOrchestrator id f) where
  events := (List.append_nil _).symm
  own := nofun
  stocks := fun other settings entries there => by
    have seated : ((engine.orchestrators.modify id f)[other]?).map _ = _ := there
    rw [getElem?_modify] at seated
    split at seated
    · next here =>
      clear there
      subst here
      obtain ⟨_, modified, kept⟩ := Option.map_eq_some_iff.mp seated
      obtain ⟨o, found, rfl⟩ := Option.map_eq_some_iff.mp modified
      cases kept
      obtain ⟨same, kept⟩ := fewer o found
      refine ⟨o.cache.entries, ?_, fun key entry member => Or.inl ⟨kept _ member, fun _ => nofun⟩⟩
      unfold stockOf
      rw [found, same]
      rfl
    · exact ⟨entries, seated, fun key entry member => Or.inl ⟨member, fun _ => nofun⟩⟩

theorem supplied_clearCache (engine : Engine) (id : Nat) :
    Supplied author [] engine (engine.clearCache id) :=
  supplied_of_fewer engine id fun _ _ => ⟨rfl, nofun⟩

theorem Aside.supplied {tells : Event → Prop} (aside : Aside tells old new)
    (other : ∀ id request key, ¬tells (.stored id request key)) :
    ∃ told, Supplied author told old new := by
  obtain ⟨told, events, allowed⟩ := aside.events
  refine ⟨told, .of_stocks events (fun id request key member =>
    other id request key (allowed _ member)) fun id => ?_⟩
  unfold stockOf
  rw [aside.orchestrators]

/-! The deeds of a completion. -/

theorem supplied_store (env : Environment) {completion : Text} (cleaned : engine.Cleaned run completion) :
    ∃ told, Supplied (some run) told engine (engine.store env run completion) := by
  obtain ⟨-, o, raw, found, rfl⟩ := cleaned
  unfold store
  split
  · exact ⟨[], .of_same rfl rfl⟩
  · next key keyed =>
    refine ⟨[.stored run.orchestrator run.request key], rfl, fun id request other member => ?_,
      fun id settings entries seated => ?_⟩
    · cases List.mem_singleton.mp member
      exact ⟨run, rfl, rfl, rfl⟩
    · have seated : ((engine.orchestrators.modify run.orchestrator _)[id]?).map _ = _ := seated
      rw [getElem?_modify] at seated
      split at seated
      · next here =>
        subst here
        rw [found] at seated
        cases seated
        refine ⟨o.cache.entries, by simp [stockOf, found], fun other entry member => ?_⟩
        rcases Cache.mem_put o.cache key _ _ _ member with ⟨kept, apart⟩ | same
        · refine Or.inl ⟨kept, fun request told => apart ?_⟩
          cases List.mem_singleton.mp told
          rfl
        · cases same
          exact Or.inr ⟨run, rfl, rfl, List.mem_singleton_self _, keyed, rfl, raw, rfl⟩
      · next apart =>
        refine ⟨entries, seated, fun other entry member => Or.inl ⟨member, fun request told => ?_⟩⟩
        cases List.mem_singleton.mp told
        exact apart rfl

theorem Deed.supplied (deed : Deed env run old new) : ∃ told, Supplied (some run) told old new := by
  cases deed with
  | aside silent => exact silent.supplied fun _ _ _ => False.elim
  | enters stage => exact ⟨_, supplied_modifyOrchestrator _ _ fun _ => ⟨rfl, rfl⟩⟩
  | notifies | asks => exact ⟨_, supplied_emit _ _ fun _ _ _ => nofun⟩
  | consults o live found =>
    unfold lookUp
    split
    · exact ⟨[], .of_same rfl rfl⟩
    · next key keyed =>
      refine ⟨_, (supplied_emit old (.consulted run.orchestrator run.request key) fun _ _ _ =>
        nofun).trans (supplied_of_fewer _ _ fun other found' => ⟨rfl, fun kept member => ?_⟩)⟩
      cases found.symm.trans found'
      exact Cache.mem_of_mem_get _ key _ member
  | stores completion live cleaned => exact supplied_store env cleaned

theorem Deeds.supplied (deeds : Deeds env run old new) : ∃ told, Supplied (some run) told old new := by
  induction deeds with
  | refl => exact ⟨[], .of_same rfl rfl⟩
  | tail deeds deed ih =>
    obtain ⟨told, first⟩ := ih
    obtain ⟨told', second⟩ := deed.supplied
    exact ⟨_, first.trans second⟩

theorem Played.supplied {step : Step} (played : Played env run old step) :
    ∃ told, Supplied (some run) told old step.1 := by
  cases played with
  | waits new target phase deeds => exact Deeds.supplied deeds
  | ends new result deeds =>
    obtain ⟨told, first⟩ := Deeds.supplied deeds
    have ended : Supplied (some run) [] new (new.endRun run result).1 := by
      unfold endRun
      split
      · exact supplied_modifyOrchestrator _ _ fun _ => ⟨rfl, rfl⟩
      · exact .of_same rfl rfl
    exact ⟨_, first.trans ended⟩

/-! One move. -/

theorem Retires.supplied (retires : Retires orchestrator old new) :
    ∃ told, Supplied author told old new := by
  obtain ⟨told, events, stops⟩ := retires.events
  refine ⟨told, .of_stocks events (fun id request key member => stops _ member) fun id => ?_⟩
  unfold stockOf
  rw [retires.orchestrators]
  exact stockOf_modify (f := Orchestrator.retired) (fun _ => ⟨rfl, rfl⟩) id

theorem Succeeds.supplied {o : Orchestrator} (succeeds : Succeeds orchestrator o old new) :
    ∃ told, Supplied author told old new := by
  obtain ⟨told, events, stops⟩ := succeeds.events
  refine ⟨told, .of_stocks events (fun id request key member => stops _ member) fun id => ?_⟩
  unfold stockOf
  rw [succeeds.orchestrators]
  refine stockOf_modify ?_ id
  exact fun _ => ⟨rfl, rfl⟩

/-- The request that begins when a task goes on from its phase. -/
def enters? (engine : Engine) (env : Environment) (phase : Phase) (outcome : Outcome) : Option Run :=
  match phase with
  | .start (.complete orchestrator document position) =>
    if outcome = .cancelled then none
    else (engine.orchestrators[orchestrator]?).map fun o =>
      .entering env o.settings orchestrator engine.requests.length document position
  | _ => none

/-- The request that a move begins. -/
def entering? (engine : Engine) (env : Environment) : Move → Option Run
  | .turn => engine.woken?.bind fun task => (engine.loop.activity? task).bind fun activity =>
      engine.enters? env activity.phase (engine.incoming activity)
  | _ => none

/-- Requests are numbered as they begin; a move stores for one that it begins or that was under
way. -/
structure Enrolled (entering : Option Run) (old new : Engine) : Prop where
  supplied : ∃ author told, Supplied author told old new ∧
    ∀ run ∈ author, run ∈ entering ∨ ∃ task, old.runOf task = some run
  works : ∀ task run, new.runOf task = some run → run ∈ entering ∨ ∃ other, old.runOf other = some run
  numbered : ∀ run ∈ entering, run.request = old.requests.length ∧
    old.requests.length < new.requests.length

theorem Enrolled.of_supplied (supplied : ∃ told, Supplied none told old new)
    (works : ∀ task, new.runOf task = old.runOf task) : Enrolled none old new where
  supplied := by
    obtain ⟨told, supplied⟩ := supplied
    exact ⟨none, told, supplied, fun run nobody => by cases nobody⟩
  works := fun task run mine => Or.inr ⟨task, (works task).symm.trans mine⟩
  numbered := fun run nobody => by cases nobody

theorem requests_length_of_marks (marks : ∀ id mark, old.markOf id = some mark →
    ∃ mark', new.markOf id = some mark') : old.requests.length ≤ new.requests.length := by
  refine Nat.le_of_not_lt fun fewer => ?_
  have inside : old.markOf new.requests.length ≠ none := fun outside =>
    Nat.not_le_of_lt fewer ((markOf_eq_none_iff old _).mp outside)
  obtain ⟨mark, known⟩ := Option.ne_none_iff_exists'.mp inside
  obtain ⟨mark', known'⟩ := marks _ mark known
  cases known'.symm.trans ((markOf_eq_none_iff new _).mpr (Nat.le_refl _))

theorem requests_length_apply (env : Environment) (coherent : engine.Coherent touched none)
    (move : Move) : engine.requests.length ≤ (engine.apply env move).requests.length := by
  have advances := advances_apply env coherent move
  refine requests_length_of_marks fun id mark known => ?_
  obtain ⟨cancelled, generation⟩ := mark
  obtain ⟨cancelled', known', -⟩ := advances.marks id cancelled generation known
  exact ⟨_, known'⟩

/-- A task works for another request than before only if its turn says so. -/
theorem runOf_conclude {step : Step} (steady : Steady old step.1) {activity : Activity Phase}
    (known : old.loop.Unfinished task activity) {other : Nat}
    (works : (conclude task step).runOf other = some run) :
    (∃ target phase, step.2 = .wait target phase ∧ phase.run? = some run) ∨
      old.runOf other = some run := by
  obtain ⟨new, verdict⟩ := step
  obtain ⟨found, known', -⟩ := steady.after task activity known
  cases verdict with
  | wait target phase =>
    rw [runOf_conclude_wait known'] at works
    split at works
    · exact Or.inl ⟨target, phase, rfl, works⟩
    · exact Or.inr ((steady.runOf other).symm.trans works)
  | done result =>
    rw [runOf_conclude_done known'] at works
    split at works
    · cases works
    · exact Or.inr ((steady.runOf other).symm.trans works)

theorem Supplied.conclude {step : Step} (supplied : Supplied author told old step.1) (task : Nat) :
    Supplied author told old (conclude task step) := by
  obtain ⟨orchestrators, -, events⟩ := conclude_frame task step
  exact List.append_nil told ▸ supplied.trans (.of_same orchestrators events)

theorem starts?_of_mem_enters? {phase : Phase} {outcome : Outcome}
    (begun : run ∈ engine.enters? env phase outcome) : outcome ≠ .cancelled ∧ ∃ o,
      phase.starts? = some run.orchestrator ∧ engine.orchestrators[run.orchestrator]? = some o ∧
      run = .entering env o.settings run.orchestrator run.request run.document run.position ∧
      run.request = engine.requests.length := by
  unfold enters? at begun
  split at begun
  · split at begun
    · cases begun
    · next wanted =>
      obtain ⟨o, found, rfl⟩ := Option.map_eq_some_iff.mp begun
      exact ⟨wanted, o, rfl, found, rfl, rfl⟩
  · cases begun

theorem Resumed.enrolled {step : Step} {phase : Phase} {outcome : Outcome}
    {running : Option (Nat × Outcome)} (resumed : Resumed env old phase outcome step)
    (coherent : old.Coherent touched running) {activity : Activity Phase}
    (known : old.loop.Unfinished task activity) (same : activity.phase = phase) :
    Enrolled (old.enters? env phase outcome) old (conclude task step) := by
  have steady := resumed.steady coherent
  have goes {run : Run} {other : Nat} (works : (conclude task step).runOf other = some run) :=
    runOf_conclude steady known works
  cases resumed with
  | plays run works played =>
    have mine : old.runOf task = some run := runOf_eq_some_iff.mpr ⟨activity, known, same ▸ works⟩
    obtain ⟨told, supplied⟩ := played.supplied
    refine ⟨⟨some run, told, supplied.conclude task, fun author own => ?_⟩,
      fun other run' works' => ?_, fun run' begun => ?_⟩
    · cases own
      exact Or.inr ⟨task, mine⟩
    · rcases goes works' with ⟨target, phase', waits, works''⟩ | before
      · cases played with
        | waits new target' next deeds works =>
          cases waits
          cases works.symm.trans works''
          exact Or.inr ⟨task, mine⟩
        | ends => cases waits
      · exact Or.inr ⟨other, before⟩
    · obtain ⟨-, o, starts, -⟩ := starts?_of_mem_enters? begun
      cases (Phase.starts?_of_works works).symm.trans starts
  | begins orchestrator o run starts wanted found mine newest succeeds opened entered =>
    obtain ⟨document, position, rfl, rfl⟩ := entered
    have played := opened.played (succeeds.isLive found mine newest)
    have begun : old.enters? env (.start (.complete orchestrator document position)) outcome =
        some (.entering env o.settings orchestrator old.requests.length document position) := by
      simp only [enters?, if_neg wanted, found, Option.map_some]
    obtain ⟨told', second⟩ := played.supplied
    obtain ⟨told, first⟩ : ∃ told, Supplied (some _) told old _ := succeeds.supplied
    rw [begun]
    refine ⟨⟨_, _, (first.trans second).conclude task, fun _ own => Or.inl own⟩,
      fun other run' works' => ?_, fun run' same => ?_⟩
    · rcases goes works' with ⟨target, phase', waits, works''⟩ | before
      · cases played with
        | waits new target' next deeds works =>
          cases waits
          exact Or.inl (works.symm.trans works'')
        | ends => cases waits
      · exact Or.inr ⟨other, before⟩
    · cases same
      refine ⟨rfl, ?_⟩
      have born := succeeds.marks old.requests.length
      rw [if_pos rfl] at born
      obtain ⟨_, kept, -⟩ := played.advances.marks _ _ _ born
      have requests := (conclude_frame task step).2.1
      rw [requests]
      refine Nat.lt_of_not_le fun outside => ?_
      cases kept.symm.trans ((markOf_eq_none_iff _ _).mpr outside)
  | absent orchestrator starts wanted nowhere same' =>
    subst same'
    have frame := (beginRequest_of_none coherent nowhere).2.1
    obtain ⟨told, events, stops⟩ := (retires_cancelCurrent coherent orchestrator).events
    have supplied : Supplied none told old (old.beginRequest orchestrator).2 := by
      refine .of_stocks events (fun id request key member => stops _ member) fun id => ?_
      unfold stockOf
      rw [frame]
    refine ⟨⟨none, told, supplied.conclude task, fun _ nobody => by cases nobody⟩,
      fun other run' works' => ?_, fun run' begun => ?_⟩
    · rcases goes works' with ⟨target, phase', waits, -⟩ | before
      · cases waits
      · exact Or.inr ⟨other, before⟩
    · obtain ⟨-, o, starts', found, -⟩ := starts?_of_mem_enters? begun
      cases starts.symm.trans starts'
      cases nowhere.symm.trans found
  | assists idle unstarted assists =>
    obtain ⟨told, supplied⟩ : ∃ told, Supplied none told old step.1 :=
      assists.aside.supplied fun _ _ _ => False.elim
    refine ⟨⟨none, told, supplied.conclude task, fun _ nobody => by cases nobody⟩,
      fun other run' works' => ?_, fun run' begun => ?_⟩
    · rcases goes works' with ⟨target, phase', waits, works''⟩ | before
      · cases (Phase.run?_of_helps (assists.helps target phase' waits)).symm.trans works''
      · exact Or.inr ⟨other, before⟩
    · obtain ⟨wanted, o, starts, -⟩ := starts?_of_mem_enters? begun
      exact absurd (unstarted fun none => by cases none.symm.trans starts) wanted

theorem entering?_of_unwoken (unwoken : engine.woken? = none) :
    engine.entering? env .turn = none := by
  simp [entering?, unwoken]

theorem enrolled_apply (env : Environment) (coherent : engine.Coherent touched none) (move : Move) :
    Enrolled (engine.entering? env move) engine (engine.apply env move) := by
  have moved := moved_apply env coherent move
  generalize engine.apply env move = next at *
  cases moved with
  | turned next turned =>
    cases turned with
    | idle rests =>
      rw [entering?_of_unwoken (by rcases rests with stopped | empty <;> simp [woken?, *])]
      exact .of_supplied ⟨[], .of_same rfl rfl⟩ fun _ => rfl
    | released waiter rest going first =>
      rw [entering?_of_unwoken (by simp [woken?, first])]
      refine .of_supplied ⟨[], .of_same rfl rfl⟩ fun task => runOf_eq_of_iff fun run => ?_
      exact exists_congr fun activity => and_congr_left fun _ =>
        unfinished_release coherent first task activity
    | woken task rest activity awake going first known same =>
      subst same
      have begins : engine.entering? env .turn =
          engine.enters? env activity.phase (engine.incoming activity) := by
        simp [entering?, woken?, going, first, known.1]
      have unfinished := (Loop.unfinished_wakeFirst rest known activity.phase task _).mpr
        (Or.inl ⟨rfl, rfl⟩)
      have enrolled := (resumed_resume env coherent first known).enrolled
        (coherent.wake first known) unfinished rfl
      have awake := runOf_wakeFirst known rest
      rw [begins]
      obtain ⟨author, told, supplied, own⟩ := enrolled.supplied
      have worked {run : Run} (works : ∃ other, ({ engine with
          loop := engine.loop.wakeFirst rest task activity.phase } : Engine).runOf other = some run) :
          ∃ other, engine.runOf other = some run :=
        works.imp fun other works => (awake other).symm.trans works
      refine ⟨⟨author, told, ?_, fun run made => (own run made).imp_right worked⟩,
        fun task run works => (enrolled.works task run works).imp_right worked, enrolled.numbered⟩
      exact ⟨supplied.events, supplied.own, supplied.stocks⟩
  | requested orchestrator document position =>
    exact .of_supplied ⟨[], .of_same rfl rfl⟩ (runOf_spawn engine)
  | cancelled orchestrator next retires =>
    exact .of_supplied retires.supplied retires.steady.runOf
  | selected orchestrator model =>
    have chosen : Supplied none [] engine (engine.modifyOrchestrator orchestrator fun o =>
        { o with model := Text.trim model }) := supplied_modifyOrchestrator _ _ fun _ => ⟨rfl, rfl⟩
    exact .of_supplied ⟨_, chosen.trans (supplied_clearCache ..)⟩ fun _ => rfl
  | cleared orchestrator notify =>
    have cleared : Supplied none [] engine (engine.clearCache orchestrator) := supplied_clearCache ..
    unfold clearCacheFor
    dsimp only
    split
    · have told : Supplied none [_] _ ((engine.clearCache orchestrator).notify .cacheCleared) :=
        supplied_emit _ (.notified .cacheCleared) fun _ _ _ same => by cases same
      exact .of_supplied ⟨_, cleared.trans told⟩ fun _ => rfl
    · exact .of_supplied ⟨_, cleared⟩ fun _ => rfl
  | aside move next silent waits =>
    have none : engine.entering? env move = none := by
      unfold entering?
      split
      · exact absurd rfl waits
      · rfl
    rw [none]
    exact .of_supplied (silent.supplied fun _ _ _ => False.elim) silent.steady.runOf

end Engine

end InlineCompletion
