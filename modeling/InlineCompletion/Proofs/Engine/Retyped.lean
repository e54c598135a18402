import InlineCompletion.Proofs.Engine.Whereabouts
import InlineCompletion.Proofs.Reply.Properties

/-!
The completion of a property whose name is typed. The model repeats the name, and the name on the cursor
line counts as one that the object has already: so the reply is dropped, and the completion ends with
nothing. The other properties of the object would have left its value to insert.
-/

namespace InlineCompletion.Engine

open Text

variable {run : Run} {name value : Text} {settings : Settings}

/-- A reply that repeats the typed name is dropped, whether its request is live or not. -/
theorem afterCall_of_retyped (env : Environment) (engine : Engine) (named : name.IsIdentifier)
    (token : value.IsToken)
    (settled : ∀ o, engine.orchestrators[run.orchestrator]? = some o → o.settings = settings)
    (inObject : run.facts.inObjectLiteral = true) (quiet : run.facts.inLogCall = false)
    (unquoted : run.facts.inStringLiteral = false) (there : name ∈ run.existing settings) :
    engine.afterCall env run (.value (.text (property name value))) =
      engine.endRun run (.value .nothing) := by
  unfold afterCall
  dsimp only
  split
  · next raw text live =>
    cases text
    unfold acceptReply
    split
    · rfl
    · next o found =>
      have dropped : Reply.clean (property name value) run.facts run.typed (run.existing o.settings) =
        [] := by
        rw [settled o found, Reply.clean_property named token inObject quiet unquoted,
          if_pos (List.contains_iff_mem.mpr there)]
      rw [dropped]
      rfl
  · rfl

/-- The completion of a property whose name is typed ends with nothing when the model replies with that
property, and says and stores nothing. This is for the sake of the name on the cursor line: had the object
only its other properties, then the value would be inserted. -/
theorem retyped_property_dropped (env : Environment) (client : Client) (seats : List (Settings × Cache Float))
    (past : List Move) (orchestrator : Nat) (document : Document) (position : Position) {settings : Settings}
    {cache : Cache Float} (seat : seats[orchestrator]? = some (settings, cache))
    (indentation name value : Text) (indented : ∀ c ∈ indentation, isBlank c = true)
    (named : name.IsIdentifier)
    (token : value.IsToken) (typed : document.before position = indentation ++ property name [])
    (inObject : (classify document position settings.scanWindow).inObjectLiteral = true)
    (quiet : (classify document position settings.scanWindow).inLogCall = false)
    (unquoted : (classify document position settings.scanWindow).inStringLiteral = false) :
    let task := (reached env client seats past).loop.futures.length
    let made := reached env client seats (past ++ [.request orchestrator document position])
    ∀ before after run, (made.play env before).Serves env task run →
      (made.play env before).comes? task = some (.value (.text (property name value))) →
      let moves := before ++ .turn :: after
      (made.play env moves).loop.outcome? task = some (.value .nothing) ∧
      warnings (chronicle env task made moves) = [] ∧ storings (chronicle env task made moves) = [] ∧
      name ∈ run.existing settings ∧
      ∀ others : List Text, name ∉ others →
        run.insertion (Reply.clean (property name value) run.facts run.typed others) =
          .text (value ++ [',']) := by
  intro task made before after run serves comes moves
  have coherent : made.Coherent (fun _ => True) none := coherent_reached ..
  have known : made.loop.Unfinished task _ :=
    unfinished_request env client seats past orchestrator document position
  have coherent' : (made.play env before).Coherent (fun _ => True) none :=
    coherent.play env before fun _ _ => trivial
  have all : made.play env before = reached env client seats
      (past ++ [.request orchestrator document position] ++ before) := (play_append ..).symm
  obtain ⟨mine, rfl, rfl⟩ :=
    (concerns_play env coherent (.begins _ known rfl) before).of_serves coherent' serves
  have settled (o : Orchestrator) (found : (made.play env before).orchestrators[run.orchestrator]? = some o) :
      o.settings = settings := by
    rw [all] at found
    obtain ⟨cache', seat'⟩ := settings_reached env client seats _ found
    cases seat.symm.trans (mine ▸ seat')
    rfl
  obtain ⟨settings', cache', seat', entered⟩ := entered_of_serves env client seats _ (all ▸ serves)
  cases seat.symm.trans (mine ▸ seat')
  have facts : run.facts = classify run.document run.position settings.scanWindow :=
    congrArg Run.facts entered
  have there : name ∈ run.existing settings := by
    unfold Run.existing
    rw [if_pos (facts ▸ inObject)]
    exact Property.mem_existing inObject typed named indented
  rw [← facts] at inObject quiet unquoted
  obtain ⟨activity, rest, step, known', first, same, ⟨runner, runs⟩, fares⟩ := fares_turn env coherent' serves
  have comes : (made.play env before).called? activity.phase ((made.play env before).incoming activity) =
      some (.value (.text (property name value))) := by
    simpa [comes?, known'.1] using comes
  obtain ⟨new, silent, rfl⟩ := fares.receives_of_called comes
  have ends : new.afterCall env run _ = new.endRun run (.value .nothing) :=
    afterCall_of_retyped env new named token
    (fun o found => settled o (silent.orchestrators ▸ found)) inObject quiet unquoted there
  rw [ends] at same runs
  have ended : ((made.play env before).apply env .turn).loop.outcome? task = some (.value .nothing) := by
    rw [same]
    exact outcome?_conclude runs _
  have events : ((made.play env before).apply env .turn).events = (made.play env before).events ++ [] := by
    rw [same, (conclude_frame task _).2.2, events_endRun, silent.silent_events, List.append_nil]
  obtain ⟨-, hushed⟩ := hushed_play env coherent known rfl before known'
  have heard : chronicle env task made moves = chronicle env task made before ++ [] :=
    chronicle_split env coherent serves.1 ended events
  rw [List.append_nil] at heard
  refine ⟨?_, ?_, ?_, there, fun others fresh => ?_⟩
  · rw [play_append]
    exact ended_play env (coherent'.apply env .turn fun _ _ => trivial) ended after
  · exact heard ▸ hushed.unwarned
  · exact heard ▸ hushed.unstored
  · rw [Reply.clean_property named token inObject quiet unquoted, if_neg (by simpa using fresh)]
    unfold Run.insertion Run.typed
    rw [typed, Overlap.unique_property named token indented inObject quiet unquoted]

/-- The cursor stands behind the name of the only property of an object. -/
def openObjectPage : Document :=
  ⟨["const o = \x7b", "  name: ", "\x7d"], "app.ts", "ts", "typescript"⟩

abbrev retypingClient : Client := { replies := [⟨["name: v"], none⟩] }

def namedRun : Run := .entering frozen whole 0 0 openObjectPage ⟨1, 8⟩

/-- The value of the only property is not inserted, although nothing else in the object has its name. -/
theorem retyped_property_dropped_alone :
    ((reached frozen retypingClient sharedSeats [.request 0 openObjectPage ⟨1, 8⟩]).play
      frozen [.turn, .turn, .turn]).loop.outcome? 0 = some (.value .nothing) ∧
    namedRun.insertion (Reply.clean (property ['n', 'a', 'm', 'e'] ['v']) namedRun.facts namedRun.typed []) =
      .text ['v', ','] := by
  have inObject : (classify openObjectPage ⟨1, 8⟩ whole.scanWindow).inObjectLiteral = true := by
    decide +kernel
  have quiet : (classify openObjectPage ⟨1, 8⟩ whole.scanWindow).inLogCall = false := by decide +kernel
  have unquoted : (classify openObjectPage ⟨1, 8⟩ whole.scanWindow).inStringLiteral = false := by
    decide +kernel
  have typed : openObjectPage.before ⟨1, 8⟩ = [' ', ' '] ++ property ['n', 'a', 'm', 'e'] [] := by
    decide +kernel
  have named : IsIdentifier ['n', 'a', 'm', 'e'] := ⟨rfl, List.all_eq_true.mp rfl⟩
  have token : IsToken ['v'] := ⟨by simp, List.all_eq_true.mp rfl⟩
  have first : (reached frozen retypingClient sharedSeats []).loop.futures.length = 0 := rfl
  have dropped := retyped_property_dropped frozen retypingClient sharedSeats [] 0 openObjectPage ⟨1, 8⟩ rfl
    [' ', ' '] ['n', 'a', 'm', 'e'] ['v'] (List.all_eq_true.mp rfl) named token typed inObject quiet unquoted
  dsimp only at dropped
  rw [first, List.nil_append] at dropped
  obtain ⟨ended, -, -, -, shown⟩ := dropped [.turn, .turn] [] namedRun
    ⟨by decide +kernel, Or.inl (by decide +kernel)⟩ (by decide +kernel)
  exact ⟨ended, shown [] (by simp)⟩

end InlineCompletion.Engine
