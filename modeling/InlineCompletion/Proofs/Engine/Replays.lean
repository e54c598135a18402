import InlineCompletion.Proofs.Engine.Fares
import InlineCompletion.Proofs.Engine.Reused

/-!
What a request is answered with from the cache: exactly what the request that stored the entry returned.
Whoever asks again at a place while its entry is there is answered so, unless the completion stands after
the cursor by now. Places whose suggestions may not be kept have no part in the cache.
-/

namespace InlineCompletion.Engine

variable {engine : Engine} {env : Environment} {run author : Run} {entry : CacheEntry Float}
  {touched : Nat → Prop} {task : Nat}

/-- A request that is answered from the cache is answered in its first turn, without more ado. -/
theorem turn_of_reuses (env : Environment) (coherent : engine.Coherent touched none)
    (reuses : engine.reuses? env = some (run, entry)) : ∃ task, engine.woken? = some task ∧
      engine.entering? env .turn = some run ∧
      (engine.apply env .turn).loop.outcome? task = some (.value (run.insertion entry.completion)) ∧
      ∃ told, (engine.apply env .turn).events = engine.events ++ told ∧ ∀ event ∈ told,
        event.Stopping ∨ ∃ key, run.key = some key ∧ event = .consulted run.orchestrator run.request key := by
  obtain ⟨_, begun, rest⟩ := Option.bind_eq_some_iff.mp reuses
  obtain ⟨o, found, hit⟩ := Option.bind_eq_some_iff.mp rest
  obtain ⟨_, looked, same⟩ := Option.map_eq_some_iff.mp hit
  cases same
  obtain ⟨task, woken, -⟩ := Option.bind_eq_some_iff.mp begun
  obtain ⟨activity, rest, step, known, first, same, ⟨runner, runs⟩, fares⟩ :=
    fares_turn env coherent ⟨woken, Or.inr begun⟩
  refine ⟨task, woken, begun, ?_⟩
  have starts : activity.phase.starts? ≠ none := by
    obtain ⟨other, woken', rest⟩ := Option.bind_eq_some_iff.mp begun
    obtain ⟨activity', there, enters⟩ := Option.bind_eq_some_iff.mp rest
    cases woken.symm.trans woken'
    cases there.symm.trans known.1
    obtain ⟨-, -, starts, -⟩ := starts?_of_mem_enters? enters
    rw [starts]
    nofun
  cases fares with
  | enters o' new begun' found' succeeds now enters =>
    cases found.symm.trans found'
    have looked' : (new.lookUp env run o.cache).1 = (engine.lookUp env run o.cache).1 :=
      lookUp_fst_congr env run o.cache now
    rw [looked] at looked'
    obtain ⟨told, events, stops⟩ := succeeds.events
    cases enters with
    | hit entry' again =>
      cases again.symm.trans looked'
      rw [same]
      refine ⟨outcome?_conclude runs _, ?_⟩
      rw [(conclude_frame task _).2.2, events_endRun]
      unfold lookUp
      split
      · exact ⟨told, events, fun event member => Or.inl (stops event member)⟩
      · next key keyed =>
        refine ⟨told ++ [.consulted run.orchestrator run.request key], ?_, fun event member => ?_⟩
        · show new.events ++ _ = _
          rw [events, List.append_assoc]
        · rcases List.mem_append.mp member with stopping | consulting
          · exact Or.inl (stops event stopping)
          · exact Or.inr ⟨key, keyed, List.mem_singleton.mp consulting⟩
    | overflows missed | waits missed | decides missed => cases missed.symm.trans looked'
  | weighs works | receives works =>
    exact absurd (Phase.starts?_of_works works) starts

/-! What the author of an entry returned. -/

/-- A task that worked for the request has returned the completion, as it is inserted at its place. -/
def Returned (env : Environment) (client : Client) (seats : List (Settings × Cache Float)) (moves : List Move)
    (author : Run) (completion : Text) : Prop :=
  ∃ past later task, moves = past ++ later ∧ (reached env client seats past).runOf task = some author ∧
    (reached env client seats moves).loop.outcome? task = some (.value (author.insertion completion))

theorem reached_append_singleton (env : Environment) (client : Client) (seats : List (Settings × Cache Float))
    (moves : List Move) (move : Move) : reached env client seats (moves ++ [move]) =
      (reached env client seats moves).apply env move :=
  play_append ..

theorem Returned.after {client : Client} {seats : List (Settings × Cache Float)} {moves : List Move}
    {completion : Text} (returned : Returned env client seats moves author completion) (move : Move) :
    Returned env client seats (moves ++ [move]) author completion := by
  obtain ⟨past, later, task, split, works, ended⟩ := returned
  refine ⟨past, later ++ [move], task, by rw [split, List.append_assoc], works, ?_⟩
  rw [reached_append_singleton]
  exact (moved_apply env (coherent_play env client seats moves) move).ended
    (coherent_play env client seats moves) ended

theorem mem_entrants_append {moves : List Move} (member : run ∈ entrants env engine moves)
    (more : List Move) :
    run ∈ entrants env engine (moves ++ more) := by
  rw [entrants_append]
  exact List.mem_append_left _ member

/-- Whatever a cache holds that was stored in the course of a run has been returned by a task of the one
who stored it. -/
theorem returned_of_stored (env : Environment) (client : Client) (seats : List (Settings × Cache Float))
    (moves : List Move) {id request : Nat} {settings : Settings} {entries : List (Text × CacheEntry Float)}
    {key : Text} (seated : (reached env client seats moves).stockOf id = some (settings, entries))
    (member : (key, entry) ∈ entries)
    (stored : storer (reached env client seats moves).events id key = some request) :
    ∃ author ∈ entrants env (opening client seats) moves, author.orchestrator = id ∧
      author.request = request ∧ Returned env client seats moves author entry.completion := by
  induction moves using List.reverseRecOn generalizing entries entry with
  | nil => cases stored
  | append_singleton moves move ih =>
    have coherent := coherent_play env client seats moves
    have sourced := sourced_play env client seats moves
    rw [reached_append_singleton] at seated stored
    obtain ⟨writer, told, supplied, -⟩ := (enrolled_apply env coherent move).supplied
    obtain ⟨before, seated', kept⟩ := supplied.stocks id settings entries seated
    rcases kept key entry member with ⟨old, none⟩ | ⟨run, made, rfl, new, -⟩
    · have earlier : storer (reached env client seats moves).events id key = some request := by
        cases latest : storer told id key with
        | none => rwa [supplied.events, storer_append, latest] at stored
        | some other => exact absurd (mem_of_storer latest) (none other)
      obtain ⟨author, early, mine, same, returned⟩ := ih seated' old earlier
      exact ⟨author, mem_entrants_append early [move], mine, same, returned.after move⟩
    · cases (supplied.storer made new).symm.trans stored
      have told' : (run.orchestrator, run.request, key) ∈ storings told := mem_storings.mpr new
      cases stores_apply env coherent move with
      | nothing same =>
        rw [supplied.events, storings_append] at same
        rw [List.append_right_eq_self.mp same] at told'
        cases told'
      | completion task author completion key' works keyed wrote returned only =>
        rw [supplied.events, storings_append, List.append_cancel_left_eq] at wrote
        rw [wrote, List.mem_singleton] at told'
        obtain ⟨seat, number, rfl⟩ : run.orchestrator = author.orchestrator ∧ run.request = author.request ∧
          key = key' := by simpa using told'
        have completed := only settings entries entry (seat ▸ seated) member
        refine ⟨author, mem_entrants_append (sourced.works task author works) [move], seat.symm,
          number.symm, moves, [move],
          task, rfl, works, ?_⟩
        rw [reached_append_singleton, completed]
        exact returned

/-! Keys. -/

theorem entered_of_mem_entrants {moves : List Move} (member : run ∈ entrants env engine moves) :
    ∃ settings, run = .entering env settings run.orchestrator run.request run.document run.position := by
  induction moves generalizing engine with
  | nil => cases member
  | cons move rest ih =>
    rcases List.mem_append.mp member with here | later
    · obtain ⟨o, -, entered⟩ := mem_entering? (Option.mem_toList.mp here)
      exact ⟨o.settings, entered⟩
    · exact ih later

/-- A request has a key only where its place is not volatile. -/
theorem derived_of_keyed {settings : Settings} {key : Text}
    (entered : run = .entering env settings run.orchestrator run.request run.document run.position)
    (keyed : run.key = some key) : run.facts.isVolatile = false ∧
      CacheKey.derive env.digest run.document run.position run.facts CacheKey.defaultWindow = .ok key := by
  have facts : run.facts = classify run.document run.position settings.scanWindow :=
    congrArg Run.facts entered
  rw [entered] at keyed
  rw [facts]
  exact volatile_eq_false keyed

/-- Whatever was ever stored was stored by a request with that key. -/
theorem author_of_storings (env : Environment) (client : Client) (seats : List (Settings × Cache Float))
    (moves : List Move) {id request : Nat} {key : Text}
    (stored : (id, request, key) ∈ storings (reached env client seats moves).events) :
    ∃ author ∈ entrants env (opening client seats) moves, author.orchestrator = id ∧
      author.request = request ∧ author.key = some key := by
  induction moves using List.reverseRecOn with
  | nil => cases stored
  | append_singleton moves move ih =>
    have sourced := sourced_play env client seats moves
    rw [reached_append_singleton] at stored
    have earlier (old : (id, request, key) ∈ storings (reached env client seats moves).events) :
        ∃ author ∈ entrants env (opening client seats) (moves ++ [move]), author.orchestrator = id ∧
          author.request = request ∧ author.key = some key :=
      (ih old).imp fun author known => ⟨mem_entrants_append known.1 [move], known.2⟩
    cases stores_apply env (coherent_play env client seats moves) move with
    | nothing same => exact earlier (same ▸ stored)
    | completion task author completion key' works keyed wrote =>
      rw [wrote] at stored
      rcases List.mem_append.mp stored with old | new
      · exact earlier old
      · cases List.mem_singleton.mp new
        exact ⟨author, mem_entrants_append (sourced.works task author works) [move], rfl, rfl, keyed⟩

/-- Two requests with one key stand at one place. -/
theorem samePlace_of_keyed {settings settings' : Settings} {key : Text}
    (long : ∀ text, 16 ≤ (env.digest text).length) (lined : author.document.IsLined)
    (lined' : run.document.IsLined)
    (discerning : CacheKey.Discerning env.digest author.document author.position run.document run.position)
    (entered : author = .entering env settings author.orchestrator author.request
      author.document author.position)
    (entered' : run = .entering env settings' run.orchestrator run.request run.document run.position)
    (keyed : author.key = some key) (keyed' : run.key = some key) :
    CacheKey.SamePlace author.document author.position run.document run.position :=
  CacheKey.samePlace_of_derive long lined lined' discerning (derived_of_keyed entered keyed).2
    (derived_of_keyed entered' keyed').2

/-- Where nothing is volatile, what is inserted depends only on the text left of the cursor. -/
theorem insertion_eq_of_calm (calm : author.facts.isVolatile = false) (calm' : run.facts.isVolatile = false)
    (typed : author.typed = run.typed) (completion : Text) :
    run.insertion completion = author.insertion completion := by
  simp only [Classification.isVolatile, Bool.or_eq_false_iff] at calm calm'
  simp only [Run.insertion, Overlap.unique, typed, calm.1.1, calm.1.2, calm.2, calm'.1.1, calm'.1.2, calm'.2,
    Bool.or_self, Bool.false_eq_true, if_false]

section Places

variable {client : Client} {seats : List (Settings × Cache Float)} {moves : List Move} {key : Text}
  (long : ∀ text, 16 ≤ (env.digest text).length)
  (lined : ∀ run ∈ entrants env (opening client seats) (moves ++ [.turn]), run.document.IsLined)
  (discerning : ∀ run ∈ entrants env (opening client seats) (moves ++ [.turn]),
    ∀ other ∈ entrants env (opening client seats) (moves ++ [.turn]),
      CacheKey.Discerning env.digest run.document run.position other.document other.position)

include long lined discerning

/-- The author of an entry and the one who finds it stand at one place. -/
theorem samePlace_of_found (early : author ∈ entrants env (opening client seats) moves)
    (begun : (reached env client seats moves).entering? env .turn = some run)
    (keyed : author.key = some key) (keyed' : run.key = some key) :
    CacheKey.SamePlace author.document author.position run.document run.position ∧
      author.facts.isVolatile = false ∧ run.facts.isVolatile = false := by
  have early' := mem_entrants_append early [.turn]
  have late : run ∈ entrants env (opening client seats) (moves ++ [.turn]) := by
    rw [entrants_append]
    exact List.mem_append_right _ (List.mem_append_left _ (Option.mem_toList.mpr begun))
  obtain ⟨settings, entered⟩ := entered_of_mem_entrants early
  obtain ⟨settings', entered'⟩ := entered_of_mem_entrants late
  exact ⟨samePlace_of_keyed long (lined author early') (lined run late) (discerning author early' run late)
    entered entered' keyed keyed', (derived_of_keyed entered keyed).1, (derived_of_keyed entered' keyed').1⟩

/-- What a request is answered with has been returned by the one who stored it, in the same form. -/
theorem returned_of_reuses (reuses : (reached env client seats moves).reuses? env = some (run, entry)) :
    ∃ key, run.key = some key ∧
      ∀ request, storer (reached env client seats moves).events run.orchestrator key = some request →
        ∃ author ∈ entrants env (opening client seats) moves, author.orchestrator = run.orchestrator ∧
          author.request = request ∧ author.insertion entry.completion = run.insertion entry.completion ∧
          Returned env client seats moves author entry.completion := by
  obtain ⟨_, begun, rest⟩ := Option.bind_eq_some_iff.mp reuses
  obtain ⟨o, found, hit⟩ := Option.bind_eq_some_iff.mp rest
  obtain ⟨_, looked, same⟩ := Option.map_eq_some_iff.mp hit
  cases same
  unfold lookUp at looked
  split at looked
  · cases looked
  next key keyed =>
  obtain ⟨got, -⟩ := Option.filter_eq_some_iff.mp looked
  refine ⟨key, keyed, fun request stored => ?_⟩
  have seated : (reached env client seats moves).stockOf run.orchestrator =
      some (o.settings, o.cache.entries) := by
    simp [stockOf, found]
  obtain ⟨author, early, mine, number, returned⟩ := returned_of_stored env client seats moves seated
    (Cache.mem_of_get o.cache key _ got) stored
  obtain ⟨other, early', mine', number', keyed'⟩ := author_of_storings env client seats moves
    (mem_storings.mpr (mem_of_storer stored))
  obtain rfl := (sourced_play env client seats moves).distinct other early' author early
    (number'.trans number.symm)
  obtain ⟨place, calm, calm'⟩ := samePlace_of_found long lined discerning early begun keyed' keyed
  refine ⟨other, early, mine, number, ?_, returned⟩
  exact (insertion_eq_of_calm calm calm' place.before.symm entry.completion).symm

/-- Whoever asks again at a place is answered with the entry that is there, unless the completion stands
after the cursor by now. -/
theorem reuses_iff_of_stored (early : author ∈ entrants env (opening client seats) moves)
    (stored : .stored author.orchestrator author.request key ∈ (reached env client seats moves).events)
    (begun : (reached env client seats moves).entering? env .turn = some run)
    (beside : run.orchestrator = author.orchestrator) (same : run.document = author.document)
    (here : run.position = author.position) : run.key = some key ∧ ∀ o entry,
      (reached env client seats moves).orchestrators[run.orchestrator]? = some o →
      (o.cache.get key (env.clock (reached env client seats moves).loop.now)).1 = some entry →
      ((reached env client seats moves).reuses? env = some (run, entry) ↔
        Reuse.isPresent entry.completion (run.document.after run.position) = false) := by
  have sourced := sourced_play env client seats moves
  obtain ⟨o, found, entered⟩ := mem_entering? begun
  have seated : (reached env client seats moves).stockOf run.orchestrator =
      some (o.settings, o.cache.entries) := by
    simp [stockOf, found]
  have keyed : run.key = some key := by
    obtain ⟨other, early', -, number, keyed⟩ := author_of_storings env client seats moves
      (mem_storings.mpr stored)
    obtain rfl := sourced.distinct other early' author early number
    rw [sourced.placed other early o.settings o.cache.entries (beside ▸ seated)] at keyed
    rw [entered, same, here]
    exact keyed
  refine ⟨keyed, fun o' entry found' got => ?_⟩
  cases found.symm.trans found'
  -- The entry that is there was stored at the same place, by this author or a later one.
  obtain ⟨request, last⟩ := Option.ne_none_iff_exists'.mp (storer_ne_none stored)
  obtain ⟨maker, early', mine, number, makes⟩ := sourced.made _ _ _ (beside ▸ seated) key entry
    (Cache.mem_of_get o.cache key _ got) request last
  obtain ⟨place, -, calm⟩ := samePlace_of_found long lined discerning early' begun makes.keyed keyed
  have typed : entry.typed = run.document.before run.position := makes.typed.trans place.before.symm
  have looked : ((reached env client seats moves).lookUp env run o.cache).1 =
      (some entry).filter fun entry => !Reuse.isUnsafe entry run.document run.position run.facts := by
    unfold lookUp
    rw [keyed]
    simp only [got]
  have fits : Reuse.isUnsafe entry run.document run.position run.facts =
      Reuse.isPresent entry.completion (run.document.after run.position) := by
    simp [Reuse.isUnsafe, calm, typed]
  unfold reuses?
  rw [begun, Option.bind_some, found, Option.bind_some, looked, Option.filter_some, fits]
  cases Reuse.isPresent entry.completion (run.document.after run.position) <;> simp

end Places

/-- The cache of an orchestrator replays what its requests returned. A request that is answered from it
gets, in its first turn and without a word to the client, what the request returned that stored the
answer. While an entry is there that was stored at a place, whoever asks again at the place is answered
with it unless the completion stands after the cursor already, as far as that can be told when both are
trimmed. A request at a volatile place changes no cache, and whatever was stored has the key of a place
that is not volatile. -/
theorem cache_replays (env : Environment) (client : Client) (seats : List (Settings × Cache Float))
    (moves : List Move) (long : ∀ text, 16 ≤ (env.digest text).length)
    (lined : ∀ run ∈ entrants env (opening client seats) (moves ++ [.turn]), run.document.IsLined)
    (discerning : ∀ run ∈ entrants env (opening client seats) (moves ++ [.turn]),
      ∀ other ∈ entrants env (opening client seats) (moves ++ [.turn]),
        CacheKey.Discerning env.digest run.document run.position other.document other.position) :
    (∀ run entry, (reached env client seats moves).reuses? env = some (run, entry) →
      (∃ task, (reached env client seats moves).woken? = some task ∧
        (reached env client seats moves).entering? env .turn = some run ∧
        (reached env client seats (moves ++ [.turn])).loop.outcome? task =
          some (.value (run.insertion entry.completion)) ∧
        ∃ told, (reached env client seats (moves ++ [.turn])).events =
            (reached env client seats moves).events ++ told ∧ ∀ event ∈ told, event.Stopping ∨
          ∃ key, run.key = some key ∧ event = .consulted run.orchestrator run.request key) ∧
      ∃ key, run.key = some key ∧
        ∀ request, storer (reached env client seats moves).events run.orchestrator key = some request →
          ∃ author ∈ entrants env (opening client seats) moves, author.orchestrator = run.orchestrator ∧
            author.request = request ∧ author.insertion entry.completion = run.insertion entry.completion ∧
            Returned env client seats moves author entry.completion) ∧
    (∀ author ∈ entrants env (opening client seats) moves, ∀ key,
      .stored author.orchestrator author.request key ∈ (reached env client seats moves).events →
      ∀ run, (reached env client seats moves).entering? env .turn = some run →
      run.orchestrator = author.orchestrator → run.document = author.document →
      run.position = author.position → run.key = some key ∧ ∀ o entry,
        (reached env client seats moves).orchestrators[run.orchestrator]? = some o →
        (o.cache.get key (env.clock (reached env client seats moves).loop.now)).1 = some entry →
        ((reached env client seats moves).reuses? env = some (run, entry) ↔
          Reuse.isPresent entry.completion (run.document.after run.position) = false)) ∧
    (∀ task run, (reached env client seats moves).Serves env task run → run.facts.isVolatile = true →
      ∀ id, (reached env client seats (moves ++ [.turn])).stockOf id =
        (reached env client seats moves).stockOf id) ∧
    ∀ id request key, .stored id request key ∈ (reached env client seats moves).events →
      ∃ author ∈ entrants env (opening client seats) moves, author.orchestrator = id ∧
        author.request = request ∧ author.facts.isVolatile = false ∧
        CacheKey.derive env.digest author.document author.position author.facts CacheKey.defaultWindow =
          .ok key := by
  have coherent := coherent_play env client seats moves
  refine ⟨fun run entry reuses => ⟨?_, returned_of_reuses long lined discerning reuses⟩,
    fun author early key stored run begun beside same here =>
      reuses_iff_of_stored long lined discerning early stored begun beside same here,
    fun task run serves volatile id => ?_, fun id request key stored => ?_⟩
  · rw [reached_append_singleton]
    exact turn_of_reuses env coherent reuses
  · obtain ⟨settings, entered⟩ : ∃ settings, run = .entering env settings run.orchestrator run.request
        run.document run.position := by
      rcases serves.2 with works | begun
      · exact entered_of_mem_entrants ((sourced_play env client seats moves).works task run works)
      · obtain ⟨o, -, entered⟩ := mem_entering? begun
        exact ⟨o.settings, entered⟩
    have unkeyed : run.key = none := by
      cases keyed : run.key with
      | none => rfl
      | some key => cases volatile.symm.trans (derived_of_keyed entered keyed).1
    rw [reached_append_singleton]
    exact stockOf_turn_of_unkeyed env coherent serves unkeyed id
  · obtain ⟨author, early, mine, number, keyed⟩ :=
      author_of_storings env client seats moves (mem_storings.mpr stored)
    obtain ⟨settings, entered⟩ := entered_of_mem_entrants early
    exact ⟨author, early, mine, number, derived_of_keyed entered keyed⟩

/-- A completion is wanted at the start of the page, and once more when it has been stored. -/
def wantedTwice (page : Document) : List Move :=
  [.request 0 page ⟨0, 0⟩, .turn, .turn, .turn, .request 0 page ⟨0, 0⟩]

/-- The page on which the completion follows the cursor, behind a blank. -/
def indentedPage : Document := ⟨[" x"], "app.ts", "ts", "typescript"⟩

/-- On one page no two digests have to be told apart. -/
theorem told_wantedTwice {page : Document} (lined : page.IsLined)
    (entrants : entrants frozen (opening sharedClient sharedSeats) (wantedTwice page ++ [.turn]) =
      [.entering frozen whole 0 0 page ⟨0, 0⟩, .entering frozen whole 0 1 page ⟨0, 0⟩]) :
    (∀ text, 16 ≤ (frozen.digest text).length) ∧
    (∀ run ∈ Engine.entrants frozen (opening sharedClient sharedSeats) (wantedTwice page ++ [.turn]),
      run.document.IsLined) ∧
    ∀ run ∈ Engine.entrants frozen (opening sharedClient sharedSeats) (wantedTwice page ++ [.turn]),
      ∀ other ∈ Engine.entrants frozen (opening sharedClient sharedSeats) (wantedTwice page ++ [.turn]),
        CacheKey.Discerning frozen.digest run.document run.position other.document other.position := by
  have placed : ∀ run ∈ Engine.entrants frozen (opening sharedClient sharedSeats)
    (wantedTwice page ++ [.turn]),
      run.document = page ∧ run.position = ⟨0, 0⟩ := by
    rw [entrants]
    intro run member
    rcases List.mem_pair.mp member with rfl | rfl <;> exact ⟨rfl, rfl⟩
  refine ⟨fun text => ?_, fun run member => ?_, fun run member other member' => ?_⟩
  · rw [show frozen.digest text = Digest.sha256 text from rfl, Digest.length_sha256]
    decide
  · rw [(placed run member).1]
    exact lined
  · obtain ⟨document, position⟩ := placed run member
    obtain ⟨document', position'⟩ := placed other member'
    rw [document, position, document', position']
    exact ⟨fun _ => rfl, fun _ => rfl⟩

/-- The second time the completion comes from the cache, as it was returned the first time. -/
theorem cache_replays_script :
    (reached frozen sharedClient sharedSeats (wantedTwice scriptPage)).reuses? frozen =
      some (.entering frozen whole 0 1 scriptPage ⟨0, 0⟩, ⟨"x", 0, []⟩) ∧
    ∃ author, Returned frozen sharedClient sharedSeats (wantedTwice scriptPage) author "x" := by
  have reuses : (reached frozen sharedClient sharedSeats (wantedTwice scriptPage)).reuses? frozen =
      some (.entering frozen whole 0 1 scriptPage ⟨0, 0⟩, ⟨"x", 0, []⟩) := by decide +kernel
  have lined : scriptPage.IsLined := by
    show ∀ line ∈ scriptPage.lines, '\n' ∉ line
    decide
  obtain ⟨long, lined, discerning⟩ := told_wantedTwice lined (by decide +kernel)
  obtain ⟨-, key, keyed, returned⟩ := (cache_replays frozen sharedClient sharedSeats (wantedTwice scriptPage)
    long lined discerning).1 _ _ reuses
  have last : storer (reached frozen sharedClient sharedSeats (wantedTwice scriptPage)).events 0 key =
    some 0 := by
    cases keyed
    decide +kernel
  obtain ⟨author, -, -, -, -, returned⟩ := returned 0 last
  exact ⟨reuses, author, returned⟩

/-- A completion that stands after the cursor behind a blank is wanted again, although the text after the
cursor does not begin with it. -/
theorem indented_not_replayed : ¬∀ (env : Environment) (client : Client)
    (seats : List (Settings × Cache Float))
    (moves : List Move), (∀ text, 16 ≤ (env.digest text).length) →
    (∀ run ∈ entrants env (opening client seats) (moves ++ [.turn]), run.document.IsLined) →
    (∀ run ∈ entrants env (opening client seats) (moves ++ [.turn]),
      ∀ other ∈ entrants env (opening client seats) (moves ++ [.turn]),
        CacheKey.Discerning env.digest run.document run.position other.document other.position) →
    ∀ author ∈ entrants env (opening client seats) moves, ∀ key,
      .stored author.orchestrator author.request key ∈ (reached env client seats moves).events →
      ∀ run, (reached env client seats moves).entering? env .turn = some run →
      run.orchestrator = author.orchestrator → run.document = author.document →
      run.position = author.position → ∀ o entry,
        (reached env client seats moves).orchestrators[run.orchestrator]? = some o →
        (o.cache.get key (env.clock (reached env client seats moves).loop.now)).1 = some entry →
        Text.startsWith (run.document.after run.position) (Text.firstLine entry.completion) = false →
        (reached env client seats moves).reuses? env = some (run, entry) := by
  intro answered
  have lined : indentedPage.IsLined := by
    show ∀ line ∈ indentedPage.lines, '\n' ∉ line
    decide
  obtain ⟨long, lined, discerning⟩ := told_wantedTwice lined (by decide +kernel)
  let key : Text := (Run.entering frozen whole 0 0 indentedPage ⟨0, 0⟩).key.getD []
  have there : ((reached frozen sharedClient sharedSeats (wantedTwice indentedPage)).orchestrators[0]?).bind
      (fun o => (o.cache.get key 0).1) = some ⟨"x", 0, []⟩ := by decide +kernel
  obtain ⟨o, found, got⟩ := Option.bind_eq_some_iff.mp there
  have stored : (0, 0, key) ∈
      storings (reached frozen sharedClient sharedSeats (wantedTwice indentedPage)).events := by
        decide +kernel
  have reuses := answered frozen sharedClient sharedSeats (wantedTwice indentedPage) long lined discerning
    (.entering frozen whole 0 0 indentedPage ⟨0, 0⟩) (by decide +kernel) key (mem_storings.mp stored)
    (.entering frozen whole 0 1 indentedPage ⟨0, 0⟩) (by decide +kernel) rfl rfl rfl o ⟨"x", 0, []⟩ found got
    (by decide +kernel)
  exact absurd reuses (by decide +kernel)

end InlineCompletion.Engine
