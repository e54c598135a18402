import Mathlib.Data.List.Induction
import InlineCompletion.Proofs.Cache.Keys
import InlineCompletion.Proofs.Engine.Governed

/-!
Where the entries of a cache come from. The trace tells which request stored under a key last, and
which model that request had asked. A cache holds only completions of the selected model as long as
every completion is stored while the model that was asked for it is still selected.
-/

namespace InlineCompletion

/-- The request that stored under the key of an orchestrator last. -/
def storer (events : List Event) (orchestrator : Nat) (key : Text) : Option Nat :=
  events.reverse.findSome? fun
    | .stored id request other =>
      if id = orchestrator ∧ other = key then some request else none
    | _ => none

/-- The model that a request asked. -/
def askedModel (events : List Event) (request : Nat) : Option Text :=
  events.findSome? fun
    | .asked id _ call => if id = request then call.model else none
    | _ => none

theorem storer_append (events told : List Event) (orchestrator : Nat) (key : Text) :
    storer (events ++ told) orchestrator key =
      (storer told orchestrator key).or (storer events orchestrator key) := by
  unfold storer
  rw [List.reverse_append, List.findSome?_append]

theorem mem_of_storer {events : List Event} {orchestrator request : Nat} {key : Text}
    (last : storer events orchestrator key = some request) :
    .stored orchestrator request key ∈ events := by
  obtain ⟨event, member, same⟩ := List.exists_of_findSome?_eq_some last
  cases event with
  | stored id other key' =>
    dsimp only at same
    split at same
    · next mine =>
      cases same
      obtain ⟨rfl, rfl⟩ := mine
      exact List.mem_reverse.mp member
    · cases same
  | recorded | asked | consulted | notified | stoppedCall | stoppedStream => cases same

theorem storer_ne_none {events : List Event} {orchestrator request : Nat} {key : Text}
    (member : .stored orchestrator request key ∈ events) : storer events orchestrator key ≠ none := by
  intro never
  have skipped := List.findSome?_eq_none_iff.mp never _ (List.mem_reverse.mpr member)
  simp at skipped

/-- What was asked first stays so. -/
theorem askedModel_append {events : List Event} {request : Nat} {model : Text}
    (asked : askedModel events request = some model) (told : List Event) :
    askedModel (events ++ told) request = some model := by
  unfold askedModel at *
  rw [List.findSome?_append, asked]
  rfl

namespace Engine

variable {engine old new middle : Engine} {env : Environment} {run : Run} {touched : Nat → Prop}
  {task orchestrator : Nat}

/-- Every entry of a cache comes from a call with the model that is selected now. -/
def Pure (engine : Engine) : Prop :=
  ∀ id o, engine.orchestrators[id]? = some o → ∀ key, o.cache.has key = true →
    (storer engine.events id key).bind (askedModel engine.events) = some o.model

/-- Whatever a step stores comes from a call with the model that is selected now. -/
def Faithful (old new : Engine) : Prop :=
  ∀ id request key, .stored id request key ∈ new.events.drop old.events.length →
    ∃ o, new.orchestrators[id]? = some o ∧ askedModel new.events request = some o.model

/-! What a step does to a cache. -/

/-- The model of an orchestrator, and the room and the keys of its cache. -/
def shelfOf (engine : Engine) (id : Nat) : Option (Text × Nat × (Text → Bool)) :=
  (engine.orchestrators[id]?).map fun o => (o.model, o.cache.capacity, o.cache.has)

/-- Nothing is stored. -/
structure Unstored (old new : Engine) : Prop where
  shelves : ∀ id, new.shelfOf id = old.shelfOf id
  events : ∃ told, new.events = old.events ++ told ∧
    ∀ id request key, .stored id request key ∉ told

/-- All that is stored is a completion of the run. -/
inductive Stocked (run : Run) (old new : Engine) : Prop where
  | nothing (unstored : Unstored old new)
  | entry (key model : Text) (capacity : Nat) (before after : Text → Bool) (told : List Event)
    (events : new.events = old.events ++ told)
    (stored : .stored run.orchestrator run.request key ∈ told)
    (only : ∀ id request other, .stored id request other ∈ told →
      id = run.orchestrator ∧ request = run.request ∧ other = key)
    (keyed : run.key = some key)
    (others : ∀ id, id ≠ run.orchestrator → new.shelfOf id = old.shelfOf id)
    (seated : old.shelfOf run.orchestrator = some (model, capacity, before))
    (seated' : new.shelfOf run.orchestrator = some (model, capacity, after))
    (there : after key = true) (more : ∀ other, after other = true → other = key ∨ before other = true)

theorem Unstored.of_same (orchestrators : new.orchestrators = old.orchestrators)
    (events : new.events = old.events) : Unstored old new where
  shelves := fun id => by
    unfold shelfOf
    rw [orchestrators]
  events := ⟨[], by simpa using events, fun _ _ _ => nofun⟩

theorem Unstored.trans {last : Engine} (first : Unstored old new) (second : Unstored new last) :
    Unstored old last := by
  obtain ⟨told, events, none⟩ := first.events
  obtain ⟨told', events', none'⟩ := second.events
  refine ⟨fun id => (second.shelves id).trans (first.shelves id), told ++ told',
    by rw [events', events, List.append_assoc], fun id request key member => ?_⟩
  rcases List.mem_append.mp member with early | late
  · exact none id request key early
  · exact none' id request key late

theorem Unstored.of_emit (engine : Engine) (event : Event)
    (other : ∀ id request key, event ≠ .stored id request key) :
    Unstored engine (engine.emit event) :=
  ⟨fun _ => rfl, [event], rfl, fun id request key member =>
    other id request key (List.mem_singleton.mp member).symm⟩

theorem unstored_modifyOrchestrator (engine : Engine) (id : Nat) {f : Orchestrator → Orchestrator}
    (same : ∀ o, engine.orchestrators[id]? = some o → (f o).model = o.model ∧
      (f o).cache.capacity = o.cache.capacity ∧ (f o).cache.has = o.cache.has) :
    Unstored engine (engine.modifyOrchestrator id f) where
  shelves := fun other => by
    show ((engine.orchestrators.modify id f)[other]?).map _ = _
    rw [getElem?_modify]
    split
    · next here =>
      subst here
      unfold shelfOf
      cases found : engine.orchestrators[other]? with
      | none => rfl
      | some o =>
        obtain ⟨model, capacity, has⟩ := same o found
        simp only [Option.map_some, model, capacity, has]
    · rfl
  events := ⟨[], by simp [modifyOrchestrator], fun _ _ _ => nofun⟩

/-- A cache is emptied, perhaps for another model. -/
structure Emptied (id : Nat) (old new : Engine) : Prop where
  others : ∀ other, other ≠ id → new.shelfOf other = old.shelfOf other
  empty : ∀ model capacity has, new.shelfOf id = some (model, capacity, has) →
    (∃ model' has', old.shelfOf id = some (model', capacity, has')) ∧ ∀ key, has key = false
  events : ∃ told, new.events = old.events ++ told ∧
    ∀ id request key, .stored id request key ∉ told

/-- Steps that store nothing may come before and after. -/
theorem Stocked.after {last : Engine} (stocked : Stocked run old new) (unstored : Unstored new last) :
    Stocked run old last := by
  cases stocked with
  | nothing first => exact .nothing (first.trans unstored)
  | entry key model capacity before after told events stored only keyed others seated seated' there more =>
    obtain ⟨told', events', none⟩ := unstored.events
    refine .entry key model capacity before after (told ++ told')
      (by rw [events', events, List.append_assoc]) (List.mem_append_left _ stored)
      (fun id request other member => ?_) keyed
      (fun id apart => (unstored.shelves id).trans (others id apart)) seated
      ((unstored.shelves _).trans seated') there more
    exact only id request other
      ((List.mem_append.mp member).resolve_right (none id request other))

theorem Stocked.before {last : Engine} (unstored : Unstored old new) (stocked : Stocked run new last) :
    Stocked run old last := by
  cases stocked with
  | nothing second => exact .nothing (unstored.trans second)
  | entry key model capacity before after told events stored only keyed others seated seated' there more =>
    obtain ⟨told', events', none⟩ := unstored.events
    refine .entry key model capacity before after (told' ++ told)
      (by rw [events, events', List.append_assoc]) (List.mem_append_right _ stored)
      (fun id request other member => ?_) keyed
      (fun id apart => (others id apart).trans (unstored.shelves id))
      ((unstored.shelves _).symm.trans seated) seated' there more
    exact only id request other
      ((List.mem_append.mp member).resolve_left (none id request other))

/-- A run stores under one key only. -/
theorem Stocked.trans {last : Engine} (first : Stocked run old new) (second : Stocked run new last) :
    Stocked run old last := by
  cases first with
  | nothing unstored => exact second.before unstored
  | entry key model capacity before after told events stored only keyed others seated seated' there more =>
    cases second with
    | nothing unstored =>
      exact (Stocked.entry key model capacity before after told events stored only keyed others seated
        seated' there more).after unstored
    | entry key' _ _ _ after' told' events' stored' only' keyed' others' middle seated'' there' more' =>
      cases keyed.symm.trans keyed'
      cases seated'.symm.trans middle
      refine .entry key model capacity before after' (told ++ told')
        (by rw [events', events, List.append_assoc]) (List.mem_append_left _ stored)
        (fun id request other member => ?_) keyed
        (fun id apart => (others' id apart).trans (others id apart)) seated seated'' there'
        fun other kept => (more' other kept).elim Or.inl (more other)
      rcases List.mem_append.mp member with early | late
      · exact only id request other early
      · exact only' id request other late

/-- Every cache can hold an entry. -/
def Roomy (engine : Engine) : Prop :=
  ∀ id model capacity has, engine.shelfOf id = some (model, capacity, has) → 0 < capacity

theorem Unstored.roomy (unstored : Unstored old new) (roomy : old.Roomy) : new.Roomy :=
  fun id model capacity has seated => roomy id model capacity has ((unstored.shelves id).symm.trans seated)

theorem Stocked.roomy (stocked : Stocked run old new) (roomy : old.Roomy) : new.Roomy := by
  cases stocked with
  | nothing unstored => exact unstored.roomy roomy
  | entry key model capacity before after told _ _ _ _ others seated seated' =>
    intro id model' capacity' has kept
    by_cases mine : id = run.orchestrator
    · subst mine
      cases seated'.symm.trans kept
      exact roomy _ _ _ _ seated
    · exact roomy id model' capacity' has ((others id mine).symm.trans kept)

/-! The deeds of a completion. -/

theorem orchestrator_of_isLive (live : engine.isLive run = true) :
    ∃ o, engine.orchestrators[run.orchestrator]? = some o := by
  have current := (Bool.and_eq_true_iff.mp live).1
  unfold isCurrent at current
  cases found : engine.orchestrators[run.orchestrator]? with
  | none => simp [found] at current
  | some o => exact ⟨o, rfl⟩

theorem stocked_store (env : Environment) (live : engine.isLive run = true) (roomy : engine.Roomy)
    (completion : Text) : Stocked run engine (engine.store env run completion) := by
  obtain ⟨o, found⟩ := orchestrator_of_isLive live
  have seated : engine.shelfOf run.orchestrator = some (o.model, o.cache.capacity, o.cache.has) := by
    simp [shelfOf, found]
  unfold store
  split
  · exact .nothing (.of_same rfl rfl)
  · next key keyed =>
    refine .entry key o.model o.cache.capacity o.cache.has
      (o.cache.put key (env.clock engine.loop.now) completion run.typed).has
      [.stored run.orchestrator run.request key] rfl (List.mem_singleton_self _)
      (fun id request other member => ?_) keyed (fun id apart => ?_) seated ?_
      (Cache.has_put_self _ key (roomy _ _ _ _ seated) _ _ _)
      fun other => Cache.has_of_has_put o.cache key _ _ _
    · cases List.mem_singleton.mp member
      exact ⟨rfl, rfl, rfl⟩
    · show ((engine.orchestrators.modify run.orchestrator _)[id]?).map _ = _
      rw [getElem?_modify, if_neg apart]
      rfl
    · show ((engine.orchestrators.modify run.orchestrator _)[run.orchestrator]?).map _ = _
      rw [getElem?_modify, if_pos rfl, found]
      rfl

theorem Aside.unstored {tells : Event → Prop} (aside : Aside tells old new)
    (other : ∀ id request key, ¬tells (.stored id request key)) : Unstored old new := by
  obtain ⟨told, events, allowed⟩ := aside.events
  refine ⟨fun id => ?_, told, events, fun id request key member =>
    other id request key (allowed _ member)⟩
  unfold shelfOf
  rw [aside.orchestrators]

theorem Deed.stocked (deed : Deed env run old new) (roomy : old.Roomy) : Stocked run old new := by
  cases deed with
  | aside silent => exact .nothing (silent.unstored fun _ _ _ => False.elim)
  | enters stage =>
    exact .nothing (unstored_modifyOrchestrator _ _ fun _ _ => ⟨rfl, rfl, rfl⟩)
  | notifies | asks => exact .nothing (.of_emit _ _ fun _ _ _ => nofun)
  | consults o live found =>
    refine .nothing ?_
    unfold lookUp
    split
    · exact .of_same rfl rfl
    · next key keyed =>
      refine (Unstored.of_emit old (.consulted run.orchestrator run.request key) fun _ _ _ =>
        nofun).trans (unstored_modifyOrchestrator _ _ fun other found' => ?_)
      cases found.symm.trans found'
      exact ⟨rfl, Cache.capacity_get .., funext fun other => Cache.has_get ..⟩
  | stores completion live => exact stocked_store env live roomy completion

theorem Deeds.stocked (deeds : Deeds env run old new) (roomy : old.Roomy) : Stocked run old new := by
  induction deeds with
  | refl => exact .nothing (.of_same rfl rfl)
  | tail deeds deed ih => exact ih.trans (deed.stocked (ih.roomy roomy))

theorem Played.stocked {step : Step} (played : Played env run old step) (roomy : old.Roomy) :
    Stocked run old step.1 := by
  cases played with
  | waits new target phase deeds => exact Deeds.stocked deeds roomy
  | ends new result deeds =>
    refine (Deeds.stocked deeds roomy).after ?_
    unfold endRun
    split
    · exact unstored_modifyOrchestrator _ _ fun _ _ => ⟨rfl, rfl, rfl⟩
    · exact .of_same rfl rfl

/-! One move. -/

theorem Retires.unstored (retires : Retires orchestrator old new) : Unstored old new := by
  obtain ⟨told, events, stops⟩ := retires.events
  have retired : Unstored old (old.modifyOrchestrator orchestrator Orchestrator.retired) :=
    unstored_modifyOrchestrator _ _ fun _ _ => ⟨rfl, rfl, rfl⟩
  refine ⟨fun id => ?_, told, events, fun id request key member => stops _ member⟩
  refine Eq.trans ?_ (retired.shelves id)
  unfold shelfOf
  rw [retires.orchestrators]
  rfl

theorem Succeeds.unstored {o : Orchestrator} (succeeds : Succeeds orchestrator o old new) :
    Unstored old new := by
  obtain ⟨told, events, stops⟩ := succeeds.events
  have retired : Unstored old (old.modifyOrchestrator orchestrator fun o =>
      { o.retired with current := some old.requests.length }) :=
    unstored_modifyOrchestrator _ _ fun _ _ => ⟨rfl, rfl, rfl⟩
  refine ⟨fun id => ?_, told, events, fun id request key member => stops _ member⟩
  refine Eq.trans ?_ (retired.shelves id)
  unfold shelfOf
  rw [succeeds.orchestrators]
  rfl

theorem Resumed.stocked {step : Step} {phase : Phase} {outcome : Outcome}
    {running : Option (Nat × Outcome)} (resumed : Resumed env old phase outcome step)
    (coherent : old.Coherent touched running) (roomy : old.Roomy) :
    Unstored old step.1 ∨ ∃ run, Stocked run old step.1 := by
  cases resumed with
  | plays run works played => exact Or.inr ⟨run, played.stocked roomy⟩
  | begins orchestrator o run starts wanted found mine newest succeeds opened =>
    have live := succeeds.isLive found mine newest
    have begun := succeeds.unstored
    exact Or.inr ⟨run, ((opened.played live).stocked (begun.roomy roomy)).before begun⟩
  | absent orchestrator starts wanted nowhere same =>
    rw [same]
    obtain ⟨-, orchestrators, -⟩ := beginRequest_of_none coherent nowhere
    obtain ⟨told, events, stops⟩ := (retires_cancelCurrent coherent orchestrator).events
    refine Or.inl ⟨fun id => ?_, told, events, fun id request key member => stops _ member⟩
    unfold shelfOf
    rw [orchestrators]
  | assists idle unstarted assists =>
    exact Or.inl (assists.aside.unstored fun _ _ _ => False.elim)

theorem emptied_modifyOrchestrator (engine : Engine) (id : Nat) {f : Orchestrator → Orchestrator}
    (cleared : ∀ o, (f o).cache = o.cache.clear) : Emptied id engine (engine.modifyOrchestrator id f) where
  others := fun other apart => by
    show ((engine.orchestrators.modify id f)[other]?).map _ = _
    rw [getElem?_modify, if_neg apart]
    rfl
  empty := fun model capacity has seated => by
    have seated : ((engine.orchestrators.modify id f)[id]?).map _ = _ := seated
    rw [getElem?_modify, if_pos rfl, Option.map_map, Option.map_eq_some_iff] at seated
    obtain ⟨o, found, same⟩ := seated
    simp only [Function.comp_apply, cleared, Prod.mk.injEq] at same
    obtain ⟨-, rfl, rfl⟩ := same
    exact ⟨⟨o.model, o.cache.has, by simp [shelfOf, found, Cache.clear]⟩, fun _ => rfl⟩
  events := ⟨[], by simp [modifyOrchestrator], fun _ _ _ => nofun⟩

theorem Emptied.emit {id : Nat} (emptied : Emptied id old new) (event : Event)
    (other : ∀ id request key, event ≠ .stored id request key) : Emptied id old (new.emit event) where
  others := emptied.others
  empty := emptied.empty
  events := by
    obtain ⟨told, events, none⟩ := emptied.events
    refine ⟨told ++ [event], ?_, fun id request key member => ?_⟩
    · show new.events ++ [event] = _
      rw [events, List.append_assoc]
    · rcases List.mem_append.mp member with early | late
      · exact none id request key early
      · exact other id request key (List.mem_singleton.mp late).symm

/-- What a move does to the caches. -/
inductive Shelved (old new : Engine) : Prop where
  | unstored (unstored : Unstored old new)
  | stocked (run : Run) (stocked : Stocked run old new)
  | emptied (id : Nat) (emptied : Emptied id old new)

theorem shelved_apply (env : Environment) (coherent : engine.Coherent touched none) (move : Move)
    (roomy : engine.Roomy) : Shelved engine (engine.apply env move) := by
  have moved := moved_apply env coherent move
  generalize engine.apply env move = next at *
  cases moved with
  | turned next turned =>
    cases turned with
    | idle => exact .unstored (.of_same rfl rfl)
    | released => exact .unstored (.of_same rfl rfl)
    | woken task rest activity awake going first known same =>
      subst same
      have woken := coherent.wake first known
      have resumed := resumed_resume env coherent first known
      obtain ⟨orchestrators, -, events⟩ := conclude_frame task
        (({ engine with loop := engine.loop.wakeFirst rest task activity.phase } : Engine).resume env
          activity.phase (engine.incoming activity))
      have concluded := Unstored.of_same orchestrators events
      have begins : Unstored engine
          { engine with loop := engine.loop.wakeFirst rest task activity.phase } := .of_same rfl rfl
      rcases resumed.stocked woken (begins.roomy roomy) with unstored | ⟨run, stocked⟩
      · exact .unstored ((begins.trans unstored).trans concluded)
      · exact .stocked run ((stocked.before begins).after concluded)
  | requested => exact .unstored (.of_same rfl rfl)
  | cancelled orchestrator next retires => exact .unstored retires.unstored
  | selected orchestrator model =>
    have same : engine.selectModel orchestrator model =
        engine.modifyOrchestrator orchestrator fun o =>
          { o with model := Text.trim model, cache := o.cache.clear } := by
      simp only [selectModel, clearCache, modifyOrchestrator, List.modify_modify_eq]
      rfl
    rw [same]
    exact .emptied orchestrator (emptied_modifyOrchestrator _ _ fun _ => rfl)
  | cleared orchestrator notify =>
    have cleared : Emptied orchestrator engine (engine.clearCache orchestrator) :=
      emptied_modifyOrchestrator _ _ fun _ => rfl
    unfold clearCacheFor
    dsimp only
    split
    · exact .emptied orchestrator (cleared.emit _ fun _ _ _ other => by cases other)
    · exact .emptied orchestrator cleared
  | aside move next silent => exact .unstored (silent.unstored fun _ _ _ => False.elim)

/-! What this means for where the entries come from. -/

theorem pure_iff : engine.Pure ↔ ∀ id model capacity has,
    engine.shelfOf id = some (model, capacity, has) → ∀ key, has key = true →
      (storer engine.events id key).bind (askedModel engine.events) = some model := by
  unfold Pure shelfOf
  constructor
  · intro pure id model capacity has seated key there
    obtain ⟨o, found, same⟩ := Option.map_eq_some_iff.mp seated
    cases same
    exact pure id o found key there
  · intro pure id o found key there
    exact pure id o.model o.cache.capacity o.cache.has (by rw [found]; rfl) key there

/-- Under a key where nothing was stored an entry keeps its origin. -/
theorem origin_of_unstored {told : List Event} (events : new.events = old.events ++ told) {id : Nat}
    {key model : Text} (none : ∀ request, .stored id request key ∉ told)
    (origin : (storer old.events id key).bind (askedModel old.events) = some model) :
    (storer new.events id key).bind (askedModel new.events) = some model := by
  obtain ⟨request, stored, asked⟩ := Option.bind_eq_some_iff.mp origin
  have fresh : storer told id key = Option.none := by
    cases last : storer told id key with
    | none => rfl
    | some other => exact absurd (mem_of_storer last) (none other)
  rw [events, storer_append, fresh, stored]
  exact askedModel_append asked told

theorem faithful_of_unstored {told : List Event} (events : new.events = old.events ++ told)
    (none : ∀ id request key, .stored id request key ∉ told) : Faithful old new := by
  intro id request key member
  rw [events, List.drop_left] at member
  exact absurd member (none id request key)

/-- A move keeps the caches pure exactly if it stores faithfully. -/
theorem Shelved.pure_iff_faithful (shelved : Shelved old new) (pure : old.Pure) :
    new.Pure ↔ Faithful old new := by
  rw [pure_iff] at pure ⊢
  cases shelved with
  | unstored unstored =>
    obtain ⟨told, events, none⟩ := unstored.events
    refine iff_of_true (fun id model capacity has seated key there => ?_)
      (faithful_of_unstored events none)
    exact origin_of_unstored events (fun request => none id request key)
      (pure id model capacity has ((unstored.shelves id).symm.trans seated) key there)
  | emptied id emptied =>
    obtain ⟨told, events, none⟩ := emptied.events
    refine iff_of_true (fun other model capacity has seated key there => ?_)
      (faithful_of_unstored events none)
    by_cases mine : other = id
    · subst mine
      cases ((emptied.empty model capacity has seated).2 key).symm.trans there
    · exact origin_of_unstored events (fun request => none other request key)
        (pure other model capacity has ((emptied.others other mine).symm.trans seated) key there)
  | stocked run stocked =>
    cases stocked with
    | nothing unstored =>
      obtain ⟨told, events, none⟩ := unstored.events
      refine iff_of_true (fun id model capacity has seated key there => ?_)
        (faithful_of_unstored events none)
      exact origin_of_unstored events (fun request => none id request key)
        (pure id model capacity has ((unstored.shelves id).symm.trans seated) key there)
    | entry key model capacity before after told events stored only keyed others seated seated' there more =>
      -- The request stored last under its key, and nothing else was stored.
      have last : storer new.events run.orchestrator key = some run.request := by
        cases latest : storer told run.orchestrator key with
        | none => exact absurd latest (storer_ne_none stored)
        | some request =>
          rw [events, storer_append, latest, (only _ _ _ (mem_of_storer latest)).2.1]
          rfl
      obtain ⟨o, found, same⟩ := Option.map_eq_some_iff.mp seated'
      simp only [Prod.mk.injEq] at same
      obtain ⟨selected, -, -⟩ := same
      constructor
      · intro pure' id request other member
        rw [events, List.drop_left] at member
        obtain ⟨rfl, rfl, rfl⟩ := only id request other member
        have origin := pure' _ _ _ _ seated' other there
        rw [last] at origin
        exact ⟨o, found, selected.symm ▸ origin⟩
      · intro faithful id model' capacity' has seat other kept
        by_cases mine : id = run.orchestrator ∧ other = key
        · obtain ⟨rfl, rfl⟩ := mine
          cases seated'.symm.trans seat
          obtain ⟨o', found', asked⟩ := faithful run.orchestrator run.request other (by
            rw [events, List.drop_left]
            exact stored)
          cases found.symm.trans found'
          rw [last, ← selected]
          exact asked
        · have none (request : Nat) : .stored id request other ∉ told := by
            intro member
            obtain ⟨seated, -, same⟩ := only id request other member
            exact mine ⟨seated, same⟩
          refine origin_of_unstored events none ?_
          by_cases here : id = run.orchestrator
          · subst here
            cases seated'.symm.trans seat
            have before := (more other kept).resolve_left fun same => mine ⟨rfl, same⟩
            exact pure _ _ _ _ seated other before
          · exact pure id model' capacity' has ((others id here).symm.trans seat) other kept

theorem Shelved.roomy (shelved : Shelved old new) (roomy : old.Roomy) : new.Roomy := by
  cases shelved with
  | unstored unstored => exact unstored.roomy roomy
  | stocked run stocked => exact stocked.roomy roomy
  | emptied id emptied =>
    intro other model capacity has seated
    by_cases mine : other = id
    · subst mine
      obtain ⟨⟨model', has', seated'⟩, -⟩ := emptied.empty model capacity has seated
      exact roomy _ _ _ _ seated'
    · exact roomy other model capacity has ((emptied.others other mine).symm.trans seated)

/-! A whole run. -/

/-- Caches that nobody has written have room, and nothing in them. -/
theorem opening_shelves (client : Client) {seats : List (Settings × Cache Float)}
    (own : ∀ seat ∈ seats, ∃ capacity ttl, Cache.empty capacity ttl = .ok seat.2) :
    (opening client seats).Roomy ∧ (opening client seats).Pure := by
  have shelf (id : Nat) (model : Text) (capacity : Nat) (has : Text → Bool)
      (seated : (opening client seats).shelfOf id = some (model, capacity, has)) :
      0 < capacity ∧ ∀ key, has key = false := by
    have seated : ((seats.map fun seat => Orchestrator.ofCache seat.1 seat.2)[id]?).map _ = _ := seated
    rw [List.getElem?_map, Option.map_map, Option.map_eq_some_iff] at seated
    obtain ⟨seat, found, same⟩ := seated
    obtain ⟨room, ttl, made⟩ := own seat (List.mem_of_getElem? found)
    unfold Cache.empty at made
    split at made
    · cases made
    · next large =>
      simp only [Except.ok.injEq] at made
      simp only [Function.comp_apply, Orchestrator.ofCache, Prod.mk.injEq, ← made] at same
      obtain ⟨-, rfl, rfl⟩ := same
      exact ⟨by omega, fun _ => rfl⟩
  refine ⟨fun id model capacity has seated => (shelf id model capacity has seated).1, ?_⟩
  refine pure_iff.mpr fun id model capacity has seated key there => ?_
  cases ((shelf id model capacity has seated).2 key).symm.trans there

theorem roomy_play (env : Environment) (client : Client) {seats : List (Settings × Cache Float)}
    (own : ∀ seat ∈ seats, ∃ capacity ttl, Cache.empty capacity ttl = .ok seat.2)
    (moves : List Move) : (reached env client seats moves).Roomy := by
  have coherent : (opening client seats).Coherent (fun _ => True) none := coherent_opening client seats
  exact coherent.play_invariant env moves (fun _ _ => trivial)
    (fun _ move coherent roomy => (shelved_apply env coherent move roomy).roomy roomy)
    (opening_shelves client own).1

/-- What a pure cache answers with is a completion of the selected model. -/
theorem Pure.answered (pure : engine.Pure) (env : Environment) {o : Orchestrator}
    (found : engine.orchestrators[run.orchestrator]? = some o) {entry : CacheEntry Float}
    (hit : (engine.lookUp env run o.cache).1 = some entry) : ∃ key, run.key = some key ∧
      (storer engine.events run.orchestrator key).bind (askedModel engine.events) = some o.model := by
  unfold lookUp at hit
  split at hit
  · cases hit
  · next key keyed =>
    refine ⟨key, keyed, pure run.orchestrator o found key ?_⟩
    obtain ⟨got, -⟩ := Option.filter_eq_some_iff.mp hit
    exact Cache.has_of_get o.cache key _ got

/-- From first to last the caches hold only completions of the selected models, exactly if every
completion is stored while the model that was asked for it is still selected. As long as they do, a
request is answered from a cache with a completion of the selected model. -/
theorem caches_pure_iff_stores_faithful (env : Environment) (client : Client)
    (seats : List (Settings × Cache Float)) (moves : List Move)
    (own : ∀ seat ∈ seats, ∃ capacity ttl, Cache.empty capacity ttl = .ok seat.2) :
    ((∀ past next, moves = past ++ next → (reached env client seats past).Pure) ↔
      ∀ past move next, moves = past ++ move :: next →
        Faithful (reached env client seats past) (reached env client seats (past ++ [move]))) ∧
    ((reached env client seats moves).Pure → ∀ run o entry,
      (reached env client seats moves).orchestrators[run.orchestrator]? = some o →
      ((reached env client seats moves).lookUp env run o.cache).1 = some entry →
      ∃ key, run.key = some key ∧
        (storer (reached env client seats moves).events run.orchestrator key).bind
          (askedModel (reached env client seats moves).events) = some o.model) := by
  have step (past : List Move) (move : Move) (pure : (reached env client seats past).Pure) :
      (reached env client seats (past ++ [move])).Pure ↔
        Faithful (reached env client seats past) (reached env client seats (past ++ [move])) := by
    have after : reached env client seats (past ++ [move]) =
        (reached env client seats past).apply env move := play_append ..
    rw [after]
    exact (shelved_apply env (coherent_play env client seats past) move
      (roomy_play env client own past)).pure_iff_faithful pure
  refine ⟨⟨?_, ?_⟩, fun pure run o entry found hit => pure.answered env found hit⟩
  · intro pure past move next split
    have before := pure past (move :: next) split
    exact (step past move before).mp (pure (past ++ [move]) next (by simp [split]))
  · intro faithful past
    induction past using List.reverseRecOn with
    | nil => exact fun _ _ => (opening_shelves client own).2
    | append_singleton past move ih =>
      intro next split
      have split : moves = past ++ move :: next := by simpa using split
      exact (step past move (ih (move :: next) split)).mpr (faithful past move next split)

/-- A model is asked for a whole answer, and another one is selected before the answer comes. -/
def switched : List Move :=
  [.request 0 blank ⟨0, 0⟩, .turn, .selectModel 0 "b", .turn, .turn]

/-- The answer of the old model is kept for the new one. -/
theorem switched_not_pure : ¬(solo whole switched).Pure ∧
    ¬∀ past move next, switched = past ++ move :: next →
      Faithful (solo whole past) (solo whole (past ++ [move])) := by
  have stained : ¬(solo whole switched).Pure := by
    intro pure
    have origin := pure 0 _ rfl "::false:0:0::" (by decide)
    exact absurd origin (by decide)
  have own : ∀ seat ∈ [(whole, (⟨1, 0, []⟩ : Cache Float))],
      ∃ capacity ttl, Cache.empty capacity ttl = .ok seat.2 := by
    intro seat member
    cases List.mem_singleton.mp member
    exact ⟨1, 0, rfl⟩
  refine ⟨stained, fun faithful => stained ?_⟩
  exact (caches_pure_iff_stores_faithful _ _ _ switched own).1.mpr faithful switched []
    (List.append_nil _).symm

end Engine

end InlineCompletion
