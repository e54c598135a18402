import InlineCompletion.Proofs.Engine.Outcomes

/-!
Where a completion works. The task that is made for a request keeps to the place of that request: whoever
serves it has its document and its position, and the facts that its orchestrator made out there.
-/

namespace InlineCompletion.Engine

variable {engine : Engine} {env : Environment} {run : Run} {touched : Nat → Prop} {task : Nat}
  {orchestrator : Nat} {document : Document} {position : Position}

/-- The task completes at a place: it is about to begin there, it works there, or it has ended. -/
inductive Concerns (engine : Engine) (task orchestrator : Nat) (document : Document) (position : Position) :
    Prop where
  | begins (activity : Activity Phase) (known : engine.loop.Unfinished task activity)
    (phase : activity.phase = .start (.complete orchestrator document position))
  | works (run : Run) (works : engine.runOf task = some run) (mine : run.orchestrator = orchestrator)
    (here : run.document = document ∧ run.position = position)
  | ended (outcome : Outcome) (ended : engine.loop.outcome? task = some outcome)

/-- Who serves a task that completes at a place is there. -/
theorem Concerns.of_serves (concerns : Concerns engine task orchestrator document position)
    (coherent : engine.Coherent touched none) (serves : engine.Serves env task run) :
    run.orchestrator = orchestrator ∧ run.document = document ∧ run.position = position := by
  obtain ⟨-, ready, first⟩ := woken?_eq_some_iff.mp serves.1
  obtain ⟨activity, known, -⟩ := Loop.Sound.wake coherent.sound first
  cases concerns with
  | begins found known' phase =>
    cases known.unique known'
    rcases serves.mine known with works | begun
    · rw [phase] at works
      cases works
    · obtain ⟨wanted, o, starts, found, placed, -⟩ := starts?_of_mem_enters? begun
      simp only [enters?, phase, if_neg wanted] at begun
      obtain ⟨o', -, rfl⟩ := Option.map_eq_some_iff.mp begun
      exact ⟨rfl, rfl, rfl⟩
  | works author works mine here =>
    obtain ⟨found, known', works⟩ := runOf_eq_some_iff.mp works
    cases known.unique known'
    rcases serves.mine known with works' | begun
    · cases works.symm.trans works'
      exact ⟨mine, here⟩
    · obtain ⟨-, o, starts, -⟩ := starts?_of_mem_enters? begun
      cases (Phase.run?_of_starts starts).symm.trans works
  | ended outcome ended => cases known.2.symm.trans ended

theorem Concerns.apply (concerns : Concerns engine task orchestrator document position) (env : Environment)
    (coherent : engine.Coherent touched none) (move : Move) :
    Concerns (engine.apply env move) task orchestrator document position := by
  have moved := moved_apply env coherent move
  -- Only its own turn changes what a task is about.
  have served (woken : engine.woken? = some task) {activity : Activity Phase}
      (known : engine.loop.Unfinished task activity) (completes : activity.phase.isCompletion = true) :
      Concerns (engine.apply env .turn) task orchestrator document position := by
    rcases serves_or_ends env coherent woken known completes with ⟨run, serves⟩ | ⟨outcome, ended, -⟩
    · obtain ⟨mine, here⟩ := concerns.of_serves coherent serves
      obtain ⟨activity, rest, step, -, first, same, ⟨runner, runs⟩, fares⟩ := fares_turn env coherent serves
      obtain ⟨quiet, main, -, -, heard⟩ := fares.told
      rw [same]
      obtain ⟨last, verdict⟩ := step
      cases verdict with
      | wait target phase =>
        refine .works run (runOf_eq_some_iff.mpr ⟨{ phase, waitingFor := some target }, ?_, ?_⟩) mine here
        · exact (Loop.unfinished_park runs phase target task _).mpr (Or.inl ⟨rfl, rfl⟩)
        · cases heard with
          | waits target phase works => exact works
          | asks target phase works => exact works
      | done outcome => exact .ended outcome (outcome?_conclude runs outcome)
    · exact .ended outcome ended
  cases concerns with
  | begins activity known phase =>
    by_cases woken : move = .turn ∧ engine.woken? = some task
    · obtain ⟨rfl, woken⟩ := woken
      exact served woken known (by rw [phase]; rfl)
    · obtain ⟨found, known', same, -⟩ := moved.unfinished coherent known fun turns => not_and.mp woken turns
      exact .begins found known' (same.trans phase)
  | works run works mine here =>
    obtain ⟨activity, known, works⟩ := runOf_eq_some_iff.mp works
    by_cases woken : move = .turn ∧ engine.woken? = some task
    · obtain ⟨rfl, woken⟩ := woken
      exact served woken known (by simp [Phase.isCompletion, works])
    · obtain ⟨found, known', same, -⟩ := moved.unfinished coherent known fun turns => not_and.mp woken turns
      exact .works run (runOf_eq_some_iff.mpr ⟨found, known', same ▸ works⟩) mine here
  | ended outcome ended => exact .ended outcome (moved.ended coherent ended)

theorem concerns_play (env : Environment) (coherent : engine.Coherent (fun _ => True) none)
    (concerns : Concerns engine task orchestrator document position) (moves : List Move) :
    Concerns (engine.play env moves) task orchestrator document position := by
  induction moves generalizing engine with
  | nil => exact concerns
  | cons move rest ih =>
    exact ih (coherent.apply env move fun _ _ => trivial) (concerns.apply env coherent move)

/-- Whoever serves a request does so with the settings of its orchestrator. -/
theorem entered_of_serves (env : Environment) (client : Client) (seats : List (Settings × Cache Float))
    (moves : List Move) (serves : (reached env client seats moves).Serves env task run) : ∃ settings cache,
      seats[run.orchestrator]? = some (settings, cache) ∧
        run = .entering env settings run.orchestrator run.request run.document run.position := by
  have entered (moves : List Move) {move : Move}
      (begun : run ∈ (reached env client seats moves).entering? env move) : ∃ settings cache,
        seats[run.orchestrator]? = some (settings, cache) ∧
          run = .entering env settings run.orchestrator run.request run.document run.position := by
    obtain ⟨o, found, placed⟩ := mem_entering? begun
    obtain ⟨cache, seat⟩ := settings_reached env client seats moves found
    exact ⟨o.settings, cache, seat, placed⟩
  rcases serves.2 with works | begun
  · have member := (sourced_play env client seats moves).works task run works
    clear serves works
    induction moves using List.reverseRecOn with
    | nil => cases member
    | append_singleton moves move ih =>
      rw [entrants_append] at member
      rcases List.mem_append.mp member with early | late
      · exact ih early
      · have late : run ∈ ((reached env client seats moves).entering? env move).toList ++ [] := late
        rw [List.append_nil] at late
        exact entered moves (Option.mem_toList.mp late)
  · exact entered moves begun

/-- Whoever serves the task of a request has entered with that, at its place. -/
theorem entering_of_serves (env : Environment) (client : Client) (seats : List (Settings × Cache Float))
    (past : List Move) (orchestrator : Nat) (document : Document) (position : Position) {settings : Settings}
    {cache : Cache Float} (seat : seats[orchestrator]? = some (settings, cache)) {before : List Move}
    (serves : ((reached env client seats (past ++ [.request orchestrator document position])).play env
      before).Serves env (reached env client seats past).loop.futures.length run) :
    run = .entering env settings orchestrator run.request document position := by
  have coherent := coherent_reached env client seats (past ++ [.request orchestrator document position])
  have concerns := concerns_play env coherent
    (.begins _ (unfinished_request env client seats past orchestrator document position) rfl) before
  obtain ⟨mine, here, there⟩ := concerns.of_serves (coherent.play env before fun _ _ => trivial) serves
  have all : (reached env client seats (past ++ [.request orchestrator document position])).play env before =
      reached env client seats (past ++ [.request orchestrator document position] ++ before) :=
    (play_append ..).symm
  obtain ⟨settings', cache', seat', entered⟩ := entered_of_serves env client seats _ (all ▸ serves)
  rw [mine] at seat' entered
  cases seat.symm.trans seat'
  rw [here, there] at entered
  exact entered

end InlineCompletion.Engine
