import Mathlib.Data.List.Chain
import InlineCompletion.Proofs.Engine.Debounces
import InlineCompletion.Proofs.Engine.Reused
import InlineCompletion.Proofs.Engine.Superseded

/-!
Debouncing collapses bursts. A completion asks the client at most once, not before its delay is over,
and only while nothing has replaced it, so that of completions that follow each other closely only the
last one can reach the client.
-/

namespace InlineCompletion.Engine

variable {engine : Engine} {env : Environment} {run : Run} {touched : Nat → Prop}
  {task request due waiter guard : Nat} {activity : Activity Phase}

/-! Until a request asks, its task waits for the time. -/

/-- The task waits for a time, or it has come. -/
inductive Abides (engine : Engine) (due : Nat) (activity : Activity Phase) : Prop where
  | debounces (watch waiter : Nat) (owner : Option Run) (phase : activity.phase = .debouncing watch owner)
    (waits : activity.waitingFor = some waiter) (punctual : engine.Punctual waiter watch due)
  | unwinds (watch : Nat) (timedOut : Bool) (owner : Option Run)
    (phase : activity.phase = .unwinding watch timedOut owner)
    (late : timedOut = true → due ≤ engine.loop.now)

theorem Abides.apply (abides : engine.Abides due activity) (env : Environment)
    (coherent : engine.Coherent touched none) (move : Move) {found : Activity Phase}
    (phase : activity.phase = found.phase) (waiting : activity.waitingFor = found.waitingFor) :
    (engine.apply env move).Abides due found := by
  cases abides with
  | debounces watch waiter owner phase' waits punctual =>
    exact .debounces watch waiter owner (phase ▸ phase') (waiting ▸ waits)
      (punctual.apply env coherent move)
  | unwinds watch timedOut owner phase' late =>
    exact .unwinds watch timedOut owner (phase ▸ phase')
      fun timedOut => Nat.le_trans (late timedOut) (now_apply env coherent move)

/-- Whoever goes on without a cancellation was released late enough. -/
theorem Punctual.ripe_of_woken (punctual : engine.Punctual waiter guard due)
    (coherent : engine.Coherent touched none) (woken : engine.woken? = some task)
    (known : engine.loop.Unfinished task activity) (waits : activity.waitingFor = some waiter)
    (passed : engine.incoming activity ≠ .cancelled) : engine.loop.Ripe guard due := by
  obtain ⟨-, rest, first⟩ := woken?_eq_some_iff.mp woken
  obtain ⟨found, known', ended, -⟩ := Loop.Sound.wake coherent.sound first
  cases known.unique known'
  have ended := (Loop.isDone_iff _ waiter).mp (ended waiter waits)
  obtain ⟨outcome, settled⟩ := Option.ne_none_iff_exists'.mp ended
  have incoming : engine.incoming activity = if activity.cancelRequested then .cancelled else outcome := by
    unfold Engine.incoming
    rw [waits, Option.bind_some, settled]
    rfl
  cases outcome with
  | value v => exact punctual.loop.ended v settled
  | failed failure => exact absurd settled (coherent.sound.calm waiter failure punctual.loop.bare)
  | cancelled => exact absurd (incoming.trans (ite_self _)) passed

/-- A request that has begun asks at most once and late enough, and until then its task waits. -/
structure Bides (engine : Engine) (request due : Nat) : Prop where
  begun : request < engine.requests.length
  waits : ∀ task activity run, engine.loop.Unfinished task activity → activity.phase.run? = some run →
    run.request = request → activity.phase.asked = true ∨
      engine.asks request = [] ∧ engine.Abides due activity
  asks : engine.asks request = [] ∨ ∃ now, engine.asks request = [now] ∧ due ≤ now

/-- A request that begins is none of those there are. -/
theorem request_of_begun (env : Environment) (coherent : engine.Coherent touched none)
    (begun : run ∈ engine.entering? env .turn) : run.request = engine.requests.length :=
  ((enrolled_apply env coherent .turn).numbered run begun).1

/-- A request asks in a turn of its task, which has waited for the watch that it has given up. -/
theorem asks_apply (env : Environment) (coherent : engine.Coherent touched none)
    (begun : request < engine.requests.length) (move : Move) :
    (engine.apply env move).asks request = engine.asks request ∨
    (move = .turn ∧ (engine.apply env move).asks request = engine.asks request ++ [engine.loop.now] ∧
      ∃ task watch activity run, engine.woken? = some task ∧ engine.loop.Unfinished task activity ∧
        activity.phase = .unwinding watch true (some run) ∧ run.request = request ∧
        engine.isLive run = true) := by
  rcases (courses_apply env coherent move).asks with mute | ⟨run, turns, asking, asks⟩
  · exact Or.inl (mute.same request)
  · have told := asks.tells request
    by_cases mine : request = run.request
    · rw [if_pos mine] at told
      cases asking with
      | late task watch activity woken known phase live =>
        exact Or.inr ⟨turns, told, task, watch, activity, run, woken, known, phase, mine.symm, live⟩
      | atOnce o begun' =>
        exact absurd (mine.trans (request_of_begun env coherent begun')) (Nat.ne_of_lt begun)
    · rw [if_neg mine, List.append_nil] at told
      exact Or.inl told

theorem Bides.apply (bides : engine.Bides request due) (env : Environment)
    (coherent : engine.Coherent touched none) (ruled : engine.Ruled) (move : Move) :
    (engine.apply env move).Bides request due where
  begun := Nat.lt_of_lt_of_le bides.begun (requests_length_apply env coherent move)
  waits := by
    intro task activity run known works mine
    have asks := asks_apply env coherent bides.begun move
    have alone {other watch : Nat} {found : Activity Phase} {run' : Run}
        (known' : engine.loop.Unfinished other found)
        (phase : found.phase = .unwinding watch true (some run')) (mine' : run'.request = request)
        {before : Activity Phase} (there : engine.loop.Unfinished task before)
        (works' : before.phase.run? = some run) : other = task :=
      ruled.governed.sole other task run' run (runOf_eq_some_iff.mpr ⟨found, known', by rw [phase]; rfl⟩)
        (runOf_eq_some_iff.mpr ⟨before, there, works'⟩) (mine'.trans mine.symm)
    cases (courses_apply env coherent move).bound task activity run known works with
    | asked asked => exact Or.inl asked
    | stays found unwoken there phase waiting =>
      rw [← phase] at works ⊢
      refine (bides.waits task found run there works mine).imp_right fun waits => ⟨?_, ?_⟩
      · rcases asks with same | ⟨turns, -, other, watch, found', run', woken, known', phase', mine', -⟩
        · exact same.trans waits.1
        · cases alone known' phase' mine' there works
          exact absurd woken (unwoken turns)
      · exact waits.2.apply env coherent move phase waiting
    | unwinds found watch timedOut woken there debounces guarded passed phase =>
      have works' : found.phase.run? = some run := by rw [debounces]; rfl
      rcases bides.waits task found run there works' mine with asked | ⟨unasked, abides⟩
      · rw [debounces] at asked
        cases asked
      · refine Or.inr ⟨?_, .unwinds watch timedOut _ phase fun timedOut => ?_⟩
        · rcases asks with same | ⟨-, -, other, watch', found', run', woken', known', phase', -⟩
          · exact same.trans unasked
          · cases woken.symm.trans woken'
            cases there.unique known'
            cases debounces.symm.trans phase'
        · cases abides with
          | debounces watch' waiter owner phase' waits punctual =>
            cases debounces.symm.trans phase'
            have ripe := punctual.ripe_of_woken coherent woken there waits (passed timedOut)
            exact Nat.le_trans (ripe.resolve_right guarded) (now_apply env coherent move)
          | unwinds _ _ _ phase' => cases debounces.symm.trans phase'
    | debounces o watch waiter begun =>
      exact absurd (mine.symm.trans (request_of_begun env coherent begun)) (Nat.ne_of_lt bides.begun)
  asks := by
    rcases asks_apply env coherent bides.begun move with
      same | ⟨-, told, task, watch, activity, run, -, known, phase, mine, -⟩
    · rw [same]
      exact bides.asks
    · have works : activity.phase.run? = some run := by rw [phase]; rfl
      rcases bides.waits task activity run known works mine with asked | ⟨unasked, abides⟩
      · rw [phase] at asked
        cases asked
      · rw [told, unasked]
        refine Or.inr ⟨_, rfl, ?_⟩
        cases abides with
        | debounces _ _ _ phase' => cases phase.symm.trans phase'
        | unwinds _ _ _ phase' late =>
          cases phase.symm.trans phase'
          exact late rfl

/-- A completion that begins waits for its delay, unless there is none. -/
theorem bides_of_begun (env : Environment) (coherent : engine.Coherent touched none) (ruled : engine.Ruled)
    (unheard : engine.asks engine.requests.length = []) (begun : run ∈ engine.entering? env .turn)
    {o : Orchestrator} (found : engine.orchestrators[run.orchestrator]? = some o) :
    (engine.apply env .turn).Bides run.request (engine.loop.now + o.settings.delay) := by
  have newest := request_of_begun env coherent begun
  have courses := courses_apply env coherent .turn
  -- Nobody has worked for the request before, and only where there is no delay it asks at once.
  have fresh {task : Nat} {activity : Activity Phase} {other : Run}
      (known : engine.loop.Unfinished task activity) (works : activity.phase.run? = some other) :
      other.request ≠ run.request :=
    newest ▸ Nat.ne_of_lt (ruled.governed.request_lt (runOf_eq_some_iff.mpr ⟨activity, known, works⟩))
  have asks : (engine.apply env .turn).asks run.request = [] ∨
      o.settings.delay = 0 ∧ (engine.apply env .turn).asks run.request = [engine.loop.now] := by
    rcases courses.asks with mute | ⟨other, -, asking, asks⟩
    · exact Or.inl ((mute.same run.request).trans (newest ▸ unheard))
    · have told := asks.tells run.request
      rw [newest, unheard, ← newest, List.nil_append] at told
      cases asking with
      | late task watch activity woken known phase =>
        rw [if_neg (fresh known (by rw [phase]; rfl)).symm] at told
        exact Or.inl told
      | atOnce o' begun' found' undelayed =>
        cases Option.mem_unique begun begun'
        cases found.symm.trans found'
        exact Or.inr ⟨undelayed, told.trans (if_pos rfl)⟩
  constructor
  · rw [newest]
    exact ((enrolled_apply env coherent .turn).numbered run begun).2
  · intro task activity other known works mine
    cases courses.bound task activity other known works with
    | asked asked => exact Or.inl asked
    | stays found' unwoken there phase => exact absurd mine (fresh there (phase ▸ works))
    | unwinds found' watch timedOut woken there debounces =>
      exact absurd mine (fresh there (by rw [debounces]; rfl))
    | debounces o' watch waiter begun' found' delayed phase waits punctual =>
      cases Option.mem_unique begun begun'
      cases found.symm.trans found'
      exact Or.inr ⟨asks.resolve_right fun given => delayed given.1,
        .debounces watch waiter _ phase waits punctual⟩
  · refine asks.imp_right fun given => ⟨_, given.2, ?_⟩
    rw [given.1]
    exact Nat.le_refl _

/-! A whole run. -/

/-- Nobody needs to have been left alone for this. -/
theorem coherent_reached (env : Environment) (client : Client) (seats : List (Settings × Cache Float))
    (moves : List Move) : (reached env client seats moves).Coherent (fun _ => True) none :=
  (coherent_play env client seats moves).mono fun _ _ => trivial

theorem Bides.play (bides : engine.Bides request due) (env : Environment)
    (coherent : engine.Coherent (fun _ => True) none) (ruled : engine.Ruled) (moves : List Move) :
    (engine.play env moves).Bides request due := by
  have step (engine : Engine) (move : Move) (coherent : engine.Coherent (fun _ => True) none)
      (both : engine.Bides request due ∧ engine.Ruled) :
      (engine.apply env move).Bides request due ∧ (engine.apply env move).Ruled :=
    ⟨both.1.apply env coherent both.2 move, both.2.apply env coherent move⟩
  exact (coherent.play_invariant env moves (fun _ _ => trivial) step ⟨bides, ruled⟩).1

/-- A request that has not begun has not asked. -/
theorem unheard_play (env : Environment) (client : Client) (seats : List (Settings × Cache Float))
    (moves : List Move) (request : Nat)
    (outside : (reached env client seats moves).requests.length ≤ request) :
    (reached env client seats moves).asks request = [] := by
  have step (engine : Engine) (move : Move)
      (coherent : engine.Coherent (fun task => .cancelTask task ∈ moves) none)
      (both : engine.Ruled ∧ ∀ request, engine.requests.length ≤ request → engine.asks request = []) :
      (engine.apply env move).Ruled ∧ ∀ request, (engine.apply env move).requests.length ≤ request →
        (engine.apply env move).asks request = [] := by
    obtain ⟨ruled, unheard⟩ := both
    refine ⟨ruled.apply env coherent move, fun request outside => ?_⟩
    have outside' := Nat.le_trans (requests_length_apply env coherent move) outside
    rcases (courses_apply env coherent move).asks with mute | ⟨run, rfl, asking, asks⟩
    · exact (mute.same request).trans (unheard request outside')
    · have apart : request ≠ run.request := by
        rintro rfl
        cases asking with
        | late task watch activity woken known phase =>
          have works := runOf_eq_some_iff.mpr ⟨activity, known, show _ = some run by rw [phase]; rfl⟩
          exact Nat.not_lt_of_le outside' (ruled.governed.request_lt works)
        | atOnce o begun =>
          obtain ⟨newest, fewer⟩ := (enrolled_apply env coherent .turn).numbered run begun
          exact Nat.not_lt_of_le outside (newest ▸ fewer)
      rw [asks.tells, if_neg apart, List.append_nil, unheard request outside']
  have both := (coherent_opening client seats).play_invariant env moves (fun _ member => member) step
    ⟨ruled_opening client seats, fun _ _ => rfl⟩
  exact both.2 request outside

/-- What a request has asked in the course of a run it asked in one of the turns, at its time. -/
theorem asked_in_turn (env : Environment) (coherent : engine.Coherent (fun _ => True) none)
    (moves : List Move) {now : Nat} (told : now ∈ (engine.play env moves).asks request)
    (unheard : now ∉ engine.asks request) : ∃ before after run, moves = before ++ .turn :: after ∧
      (engine.play env before).Asking env run ∧ run.request = request ∧
      (engine.play env before).loop.now = now ∧
      Asks run now (engine.play env before) ((engine.play env before).apply env .turn) := by
  induction moves generalizing engine with
  | nil => exact absurd told unheard
  | cons move rest ih =>
    by_cases first : now ∈ (engine.apply env move).asks request
    · rcases (courses_apply env coherent move).asks with mute | ⟨run, rfl, asking, asks⟩
      · exact absurd (mute.same request ▸ first) unheard
      · rw [asks.tells] at first
        have added := (List.mem_append.mp first).resolve_left unheard
        split at added
        · next mine =>
          cases List.mem_singleton.mp added
          exact ⟨[], rest, run, rfl, asking, mine.symm, rfl, asks⟩
        · cases added
    · obtain ⟨before, after, run, rfl, rest⟩ := ih (coherent.apply env move fun _ _ => trivial) told first
      exact ⟨move :: before, after, run, rfl, rest⟩

/-- Whoever works for a request has done so since it began. -/
theorem works_since (env : Environment) (coherent : engine.Coherent (fun _ => True) none)
    (moves : List Move) (begun : run.request < engine.requests.length)
    (works : (engine.play env moves).runOf task = some run) : ∃ other, engine.runOf other = some run := by
  induction moves generalizing engine task with
  | nil => exact ⟨task, works⟩
  | cons move rest ih =>
    have enrolled := enrolled_apply env coherent move
    obtain ⟨other, works'⟩ := ih (coherent.apply env move fun _ _ => trivial)
      (Nat.lt_of_lt_of_le begun (requests_length_apply env coherent move)) works
    refine (enrolled.works other run works').resolve_left fun entering => ?_
    exact Nat.ne_of_lt begun (enrolled.numbered run entering).1

/-- A request keeps its generation, and once it is cancelled it stays so. -/
theorem marks_play (env : Environment) (coherent : engine.Coherent (fun _ => True) none) (moves : List Move)
    {cancelled : Bool} {generation : Int} (mark : engine.markOf request = some (cancelled, generation)) :
    ∃ cancelled', (engine.play env moves).markOf request = some (cancelled', generation) ∧
      (cancelled = true → cancelled' = true) := by
  have step (engine : Engine) (move : Move) (coherent : engine.Coherent (fun _ => True) none)
      (known : ∃ cancelled', engine.markOf request = some (cancelled', generation) ∧
        (cancelled = true → cancelled' = true)) :
      ∃ cancelled', (engine.apply env move).markOf request = some (cancelled', generation) ∧
        (cancelled = true → cancelled' = true) := by
    obtain ⟨middle, mark, keeps⟩ := known
    obtain ⟨last, mark', keeps'⟩ := (advances_apply env coherent move).marks request middle generation mark
    exact ⟨last, mark', fun gone => keeps' (keeps gone)⟩
  exact coherent.play_invariant env moves (fun _ _ => trivial) step ⟨cancelled, mark, id⟩

/-- While a request is live nothing has replaced it. -/
theorem quiet_of_isLive (env : Environment) (coherent : engine.Coherent (fun _ => True) none)
    (ruled : engine.Ruled) (moves : List Move) (ruled' : (engine.play env moves).Ruled)
    (works : engine.runOf task = some run) (live : (engine.play env moves).isLive run = true) :
    triggers env run.orchestrator engine moves = 0 ∧ cancels run.orchestrator moves = 0 := by
  obtain ⟨current, generation, cancelled, born, tenure, mark, stands⟩ := ruled.governed.runs task run works
  obtain ⟨generation', tenure'⟩ := (ruled'.governed.isLive_iff run).mp live
  obtain ⟨mark', -⟩ := ruled'.governed.current _ _ _ tenure'
  obtain ⟨later, mark'', keeps⟩ := marks_play env coherent moves mark
  cases mark'.symm.trans mark''
  -- The request is of the generation in which it began, and so its orchestrator still is.
  have latest : generation = born := by
    rcases stands with rfl | ⟨gone, -⟩
    · obtain ⟨here, -⟩ := ruled.governed.current _ _ _ tenure
      cases mark.symm.trans here
      rfl
    · cases keeps gone
  have counted := generation_play env coherent moves (fun _ _ => trivial) run.orchestrator
  rw [generationOf_eq, generationOf_eq, tenure, tenure'] at counted
  have counted := Option.some.inj counted
  dsimp only at counted
  omega

/-! The settings. -/

theorem settings_reached (env : Environment) (client : Client) (seats : List (Settings × Cache Float))
    (moves : List Move) {id : Nat} {o : Orchestrator}
    (found : (reached env client seats moves).orchestrators[id]? = some o) :
    ∃ cache, seats[id]? = some (o.settings, cache) := by
  have step (engine : Engine) (move : Move)
      (coherent : engine.Coherent (fun task => .cancelTask task ∈ moves) none)
      (same : ∀ id settings entries, engine.stockOf id = some (settings, entries) →
        ∃ cache, seats[id]? = some (settings, cache)) (id : Nat) (settings : Settings)
      (entries : List (Text × CacheEntry Float))
      (seated : (engine.apply env move).stockOf id = some (settings, entries)) :
      ∃ cache, seats[id]? = some (settings, cache) := by
    obtain ⟨author, told, supplied, -⟩ := (enrolled_apply env coherent move).supplied
    obtain ⟨before, seated', -⟩ := supplied.stocks id settings entries seated
    exact same id settings before seated'
  refine (coherent_opening client seats).play_invariant env moves (fun _ member => member) step
    (fun id settings entries seated => ?_) id o.settings o.cache.entries ?_
  · have seated : ((seats.map fun seat => Orchestrator.ofCache seat.1 seat.2)[id]?).map
        (fun o => (o.settings, o.cache.entries)) = some (settings, entries) := seated
    rw [List.getElem?_map, Option.map_map, Option.map_eq_some_iff] at seated
    obtain ⟨seat, found, same⟩ := seated
    exact ⟨seat.2, found.trans (by rw [← (Prod.mk.inj same).1]; rfl)⟩
  · unfold stockOf
    rw [found]
    rfl

/-! Bursts. -/

theorem begins?_of_begun (begun : run ∈ engine.entering? env .turn) :
    engine.begins? = some run.orchestrator := by
  obtain ⟨task, woken, rest⟩ := Option.bind_eq_some_iff.mp begun
  obtain ⟨activity, known, enters⟩ := Option.bind_eq_some_iff.mp rest
  obtain ⟨wanted, o, starts, -⟩ := starts?_of_mem_enters? enters
  simp [begins?, woken, known, wanted, starts]

theorem triggers_append (env : Environment) (id : Nat) (engine : Engine) (moves more : List Move) :
    triggers env id engine (moves ++ more) =
      triggers env id engine moves + triggers env id (engine.play env moves) more := by
  induction moves generalizing engine with
  | nil => exact (Nat.zero_add _).symm
  | cons move rest ih =>
    have later := ih (engine.apply env move)
    cases move <;> simp only [List.cons_append, triggers, later, play, List.foldl_cons, Nat.add_assoc]

/-- A request that begins asks at most once, in one turn that comes when its delay is over, and nothing
has replaced it until then. -/
theorem debounced_reached (env : Environment) (client : Client) (seats : List (Settings × Cache Float))
    (past moves : List Move) (begun : run ∈ (reached env client seats past).entering? env .turn)
    {o : Orchestrator} (found : (reached env client seats past).orchestrators[run.orchestrator]? = some o) :
    ((reached env client seats (past ++ .turn :: moves)).asks run.request).length ≤ 1 ∧
    ∀ now ∈ (reached env client seats (past ++ .turn :: moves)).asks run.request,
      (reached env client seats past).loop.now + o.settings.delay ≤ now ∧
      ∃ before after, .turn :: moves = before ++ .turn :: after ∧
        (reached env client seats (past ++ before)).loop.now = now ∧
        (reached env client seats (past ++ before)).asks run.request = [] ∧
        (reached env client seats (past ++ before ++ [.turn])).asks run.request = [now] ∧
        ∀ between, before = .turn :: between →
          triggers env run.orchestrator (reached env client seats (past ++ [.turn])) between = 0 ∧
            cancels run.orchestrator between = 0 := by
  have coherent := coherent_reached env client seats past
  have ruled := ruled_play env client seats past
  have unheard := unheard_play env client seats past _ (Nat.le_refl _)
  have plays (more : List Move) : reached env client seats (past ++ more) =
      (reached env client seats past).play env more := play_append ..
  simp only [List.append_assoc, plays]
  generalize reached env client seats past = engine at *
  have newest := request_of_begun env coherent begun
  have coherent' : (engine.apply env .turn).Coherent (fun _ => True) none :=
    coherent.apply env .turn fun _ _ => trivial
  have ruled' := ruled.apply env coherent .turn
  have bides := bides_of_begun env coherent ruled unheard begun found
  have last := bides.play env coherent' ruled' moves
  have turns : engine.play env (.turn :: moves) = (engine.apply env .turn).play env moves := rfl
  constructor
  · rw [turns]
    rcases last.asks with none | ⟨now, one, -⟩
    · rw [none]
      exact Nat.zero_le _
    · rw [one]
      exact Nat.le_refl _
  intro now told
  have late : engine.loop.now + o.settings.delay ≤ now := by
    rw [turns] at told
    rcases last.asks with none | ⟨now', one, late⟩
    · rw [none] at told
      cases told
    · rw [one, List.mem_singleton] at told
      exact told ▸ late
  obtain ⟨before, after, run', split, asking, mine, time, asks⟩ := asked_in_turn env coherent _ told
    (show now ∉ engine.asks run.request by rw [newest, unheard]; nofun)
  have told' (none : (engine.play env before).asks run.request = []) :
      (engine.play env (before ++ [.turn])).asks run.request = [now] := by
    rw [play_append]
    show ((engine.play env before).apply env .turn).asks run.request = [now]
    rw [asks.tells, none, if_pos mine.symm, List.nil_append]
  cases before with
  | nil =>
    have none : engine.asks run.request = [] := newest ▸ unheard
    exact ⟨late, [], after, split, time, none, told' none, fun _ same => by cases same⟩
  | cons first between =>
    obtain ⟨rfl, -⟩ := List.cons.inj split
    have bides' := bides.play env coherent' ruled' between
    have ruled'' : ((engine.apply env .turn).play env between).Ruled :=
      ruled'.play env between coherent' fun _ _ => trivial
    cases asking with
    | atOnce o' begun' =>
      have newest' := request_of_begun env (coherent'.play env between fun _ _ => trivial) begun'
      exact absurd (mine.symm.trans newest') (Nat.ne_of_lt bides'.begun)
    | late task watch activity woken known phase live =>
      have works : activity.phase.run? = some run' := by rw [phase]; rfl
      have none := (bides'.waits task activity run' known works mine).resolve_left
        (by simp [phase, Phase.asked])
      -- Whoever asks works for the request that began, since nobody else has its number.
      obtain ⟨other, works'⟩ := works_since env coherent' between (mine ▸ bides.begun)
        (runOf_eq_some_iff.mpr ⟨activity, known, works⟩)
      have same : run' = run := by
        rcases (enrolled_apply env coherent .turn).works other run' works' with entering | ⟨_, earlier⟩
        · exact Option.mem_unique entering begun
        · exact absurd (mine.trans newest) (Nat.ne_of_lt (ruled.governed.request_lt earlier))
      subst same
      refine ⟨late, .turn :: between, after, split, time, none.1, told' none.1,
        fun rest same => ?_⟩
      cases same
      exact quiet_of_isLive env coherent' ruled' between ruled'' works' live

/-- Of two completions of an orchestrator, the second of which begins before the delay of the first is
over, the first never asks. -/
theorem unasked_of_close (env : Environment) (client : Client) (seats : List (Settings × Cache Float))
    (past between more : List Move) {run next : Run}
    (begun : run ∈ (reached env client seats past).entering? env .turn)
    (begun' : next ∈ (reached env client seats (past ++ .turn :: between)).entering? env .turn)
    (same : next.orchestrator = run.orchestrator) {o : Orchestrator}
    (found : (reached env client seats past).orchestrators[run.orchestrator]? = some o)
    (close : (reached env client seats (past ++ .turn :: between)).loop.now <
      (reached env client seats past).loop.now + o.settings.delay) :
    (reached env client seats (past ++ .turn :: between ++ .turn :: more)).asks run.request = [] := by
  refine List.eq_nil_iff_forall_not_mem.mpr fun now told => ?_
  rw [List.append_assoc, List.cons_append] at told
  obtain ⟨late, before, after, split, time, -, -, quiet⟩ :=
    (debounced_reached env client seats past _ begun found).2 now told
  have split : (.turn :: between) ++ .turn :: more = before ++ .turn :: after := split
  have plays (moves : List Move) : reached env client seats (past ++ moves) =
      (reached env client seats past).play env moves := play_append ..
  rcases List.append_eq_append_iff.mp split with ⟨rest, rfl, rest'⟩ | ⟨rest, first, -⟩
  · -- The second completion has begun before the first one asks.
    cases rest with
    | nil =>
      rw [List.append_nil] at time
      omega
    | cons move rest =>
      obtain ⟨rfl, -⟩ := List.cons.inj rest'
      have none := (quiet (between ++ .turn :: rest) rfl).1
      have here : (reached env client seats (past ++ [.turn])).play env between =
          reached env client seats (past ++ .turn :: between) := by
        rw [plays, plays]
        rfl
      rw [triggers_append, here, ← same] at none
      simp [triggers, begins?_of_begun begun'] at none
  · have earlier : (reached env client seats (past ++ before)).loop.now ≤
        (reached env client seats (past ++ .turn :: between)).loop.now := by
      have play := play_append (reached env client seats past) env before rest
      rw [plays (.turn :: between), first, play, ← plays]
      exact now_play env (coherent_reached env client seats (past ++ before)) rest fun _ _ => trivial
    omega

/-- The requests that an orchestrator begins in the course of these moves, each with its time. -/
def beginnings (env : Environment) (id : Nat) : Engine → List Move → List (Nat × Nat)
  | _, [] => []
  | engine, move :: rest =>
    ((engine.entering? env move).filter (·.orchestrator = id)).toList.map
      (fun run => (run.request, engine.loop.now)) ++ beginnings env id (engine.apply env move) rest

theorem beginnings_split (env : Environment) {id : Nat} (moves : List Move) {first rest : List (Nat × Nat)}
    {entry : Nat × Nat} (split : beginnings env id engine moves = first ++ entry :: rest) :
    ∃ before after run, moves = before ++ .turn :: after ∧
      run ∈ (engine.play env before).entering? env .turn ∧ run.orchestrator = id ∧
      entry = (run.request, (engine.play env before).loop.now) ∧
      beginnings env id (engine.play env (before ++ [.turn])) after = rest := by
  induction moves generalizing engine first with
  | nil => exact absurd split.symm (List.append_ne_nil_of_right_ne_nil first nofun)
  | cons move moves ih =>
    have later {first : List (Nat × Nat)}
        (split : beginnings env id (engine.apply env move) moves = first ++ entry :: rest) :
        ∃ before after run, move :: moves = before ++ .turn :: after ∧
          run ∈ (engine.play env before).entering? env .turn ∧ run.orchestrator = id ∧
          entry = (run.request, (engine.play env before).loop.now) ∧
          beginnings env id (engine.play env (before ++ [.turn])) after = rest := by
      obtain ⟨before, after, run, rfl, given⟩ := ih split
      exact ⟨move :: before, after, run, rfl, given⟩
    unfold beginnings at split
    cases entering : (engine.entering? env move).filter (·.orchestrator = id) with
    | none =>
      rw [entering] at split
      exact later split
    | some run =>
      obtain ⟨begun, mine⟩ := Option.filter_eq_some_iff.mp entering
      rw [entering] at split
      cases first with
      | nil =>
        obtain ⟨same, rest'⟩ := List.cons.inj split
        cases move with
        | turn => exact ⟨[], moves, run, rfl, begun, of_decide_eq_true mine, same.symm, rest'⟩
        | _ => cases begun
      | cons other first => exact later (List.cons.inj split).2

/-- A request asks the client at most once, when the delay after its beginning is over and nothing has
begun or been cancelled in between. Hence of requests that begin closely after each other only the last
one can ask. -/
theorem debounce_collapses_bursts (env : Environment) (client : Client)
    (seats : List (Settings × Cache Float)) {id : Nat} {settings : Settings} {cache : Cache Float}
    (seat : seats[id]? = some (settings, cache)) :
    (∀ (past moves : List Move) (run : Run), run ∈ (reached env client seats past).entering? env .turn →
      run.orchestrator = id →
      ((reached env client seats (past ++ .turn :: moves)).asks run.request).length ≤ 1 ∧
      ∀ now ∈ (reached env client seats (past ++ .turn :: moves)).asks run.request,
        (reached env client seats past).loop.now + settings.delay ≤ now ∧
        ∃ before after, .turn :: moves = before ++ .turn :: after ∧
          (reached env client seats (past ++ before)).loop.now = now ∧
          (reached env client seats (past ++ before)).asks run.request = [] ∧
          (reached env client seats (past ++ before ++ [.turn])).asks run.request = [now] ∧
          ∀ between, before = .turn :: between →
            triggers env id (reached env client seats (past ++ [.turn])) between = 0 ∧
              cancels id between = 0) ∧
    ∀ past moves more : List Move,
      (beginnings env id (reached env client seats past) moves).IsChain
        (fun first second => second.2 < first.2 + settings.delay) →
      ∀ entry ∈ (beginnings env id (reached env client seats past) moves).dropLast,
        (reached env client seats (past ++ moves ++ more)).asks entry.1 = [] := by
  have seated {past : List Move} {run : Run}
      (begun : run ∈ (reached env client seats past).entering? env .turn) (mine : run.orchestrator = id) :
      ∃ o, (reached env client seats past).orchestrators[run.orchestrator]? = some o ∧
        o.settings = settings := by
    obtain ⟨o, found, -⟩ := mem_entering? begun
    obtain ⟨cache', seat'⟩ := settings_reached env client seats past found
    rw [mine, seat] at seat'
    cases seat'
    exact ⟨o, found, rfl⟩
  constructor
  · intro past moves run begun mine
    obtain ⟨o, found, rfl⟩ := seated begun mine
    subst mine
    exact debounced_reached env client seats past moves begun found
  · intro past moves more chain entry member
    have plays (moves : List Move) : reached env client seats (past ++ moves) =
        (reached env client seats past).play env moves := play_append ..
    obtain ⟨first, rest, init⟩ := List.append_of_mem member
    have nonempty : beginnings env id (reached env client seats past) moves ≠ [] := by
      intro none
      simp [none] at member
    have whole := List.dropLast_append_getLast nonempty
    rw [init, List.append_assoc, List.cons_append] at whole
    obtain ⟨second, rest', tail⟩ := List.exists_cons_of_ne_nil (List.append_ne_nil_of_right_ne_nil rest
      (List.cons_ne_nil ((beginnings env id (reached env client seats past) moves).getLast nonempty) []))
    rw [tail] at whole
    have close := List.isChain_iff_forall_rel_of_append_cons_cons.mp chain whole.symm
    obtain ⟨before, after, run, rfl, begun, mine, rfl, later⟩ := beginnings_split env moves whole.symm
    have later : beginnings env id ((reached env client seats past).play env (before ++ [.turn])) after =
        [] ++ second :: rest' := later
    obtain ⟨between, after, next, rfl, begun', mine', rfl, -⟩ := beginnings_split env after later
    have latter : reached env client seats (past ++ before ++ .turn :: between) =
        ((reached env client seats past).play env (before ++ [.turn])).play env between := by
      rw [List.append_assoc, plays, List.append_cons before, play_append]
    rw [← plays] at begun
    rw [← latter] at begun'
    rw [← latter, ← plays before] at close
    obtain ⟨o, found, rfl⟩ := seated begun mine
    have unasked := unasked_of_close env client seats (past ++ before) between (after ++ more) begun begun'
      (mine'.trans mine.symm) found close
    simpa only [List.append_assoc, List.cons_append] using unasked

/-- Two requests at once, and then time for both to end. -/
def burst : List Move :=
  [.request 0 blank ⟨0, 0⟩, .request 0 blank ⟨0, 0⟩] ++ List.replicate 4 .turn ++
    [.pass 1000000, .fireTimers] ++ List.replicate 9 .turn

/-- The second of them asks when its delay is over. -/
theorem debounce_collapses_bursts_pair :
    let hasty : Settings := { whole with debounceMs := 1 }
    beginnings ⟨fun _ => [], fun _ => 0⟩ 0 (solo hasty []) burst = [(0, 0), (1, 0)] ∧
      (solo hasty burst).asks 0 = [] ∧ (solo hasty burst).asks 1 = [1000000] := by
  intro hasty
  have begins : beginnings ⟨fun _ => [], fun _ => 0⟩ 0 (solo hasty []) burst = [(0, 0), (1, 0)] := by decide
  have seat : [(hasty, (⟨1, 0, []⟩ : Cache Float))][0]? = some (hasty, ⟨1, 0, []⟩) := rfl
  refine ⟨begins, (debounce_collapses_bursts _ _ _ seat).2 [] burst [] ?_ (0, 0) ?_, by decide⟩
  · rw [begins]
    decide
  · rw [begins]
    decide

end InlineCompletion.Engine
