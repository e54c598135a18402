import InlineCompletion.Proofs.Engine.Replays
import InlineCompletion.Proofs.Reply.Overlaps
import InlineCompletion.Proofs.Text.Trims

/-!
What a cached completion repeats of the text after the cursor. An entry is passed over if its text stands
there already. But the text that is inserted may be shorter, by what it echoes of the text before the
cursor, and what is left of it may stand there all the same.
-/

namespace InlineCompletion

open Text

/-- The first line of a text that can be seen can be seen when the text is trimmed. -/
theorem Text.firstLine_trim_ne_nil {text : Text} (visible : allBlank text = false) :
    firstLine (trim text) ≠ [] := by
  obtain ⟨c, rest, left, shown⟩ := exists_cons_trimLeft visible
  obtain ⟨kept, trimmed⟩ : ∃ kept, trim text = c :: kept := by
    rw [trim, left]
    exact trimRight_cons shown rest
  have line : c ≠ '\n' := fun same => by
    subst same
    cases shown
  rw [trimmed]
  simp [firstLine, line]

/-- A completion that can be seen is present exactly if the trimmed rest of the line begins with its first
line. -/
theorem Reuse.isPresent_eq_of_visible {completion : Text} (visible : allBlank completion = false)
    (rest : Text) :
    Reuse.isPresent completion rest = startsWith (trim rest) (firstLine (trim completion)) := by
  have some := Text.firstLine_trim_ne_nil visible
  have there : trim completion ≠ [] := fun none => some (by rw [none]; rfl)
  unfold Reuse.isPresent
  dsimp only
  cases after : trim rest with
  | nil =>
    cases line : firstLine (trim completion) with
    | nil => exact absurd line some
    | cons c tail => simp [startsWith]
  | cons c tail => simp [there]

namespace Overlap

theorem unique_of_calm {completion typed shown : Text} {facts : Classification}
    (calm : facts.isVolatile = false)
    (given : unique completion typed facts = some shown) : shown = remove completion typed := by
  rw [unique_eq_of_calm calm] at given
  split at given
  · cases given
  · exact (someUnlessBlank_eq_some.mp given).1.symm

end Overlap

theorem Run.insertion_eq_text_iff {run : Run} {completion shown : Text} :
    run.insertion completion = .text shown ↔ Overlap.unique completion run.typed run.facts = some shown := by
  unfold Run.insertion
  split <;> simp [*]

namespace Engine

/-- A request that is answered from the cache gets the end of an entry whose text does not stand after the
cursor. So what it gets does not stand there either, unless it is what was left of the entry when an echo
of the typed text was cut off. -/
theorem reused_present_only_past_echo (env : Environment) (client : Client)
    (seats : List (Settings × Cache Float)) (moves : List Move) :
    ∀ run entry, (reached env client seats moves).reuses? env = some (run, entry) →
      (∃ task, (reached env client seats moves).woken? = some task ∧
        (reached env client seats (moves ++ [.turn])).loop.outcome? task =
          some (.value (run.insertion entry.completion))) ∧
      Reuse.isPresent entry.completion (run.document.after run.position) = false ∧
      ∀ shown, run.insertion entry.completion = .text shown → shown <:+ entry.completion ∧
        (startsWith (trim (run.document.after run.position)) (firstLine (trim shown)) = true →
          shown ≠ entry.completion ∧ ∃ tail ∈ Overlap.tokenTails none run.typed,
            Overlap.dropEcho (trimLeft entry.completion) tail = some shown) := by
  intro run entry reuses
  obtain ⟨task, woken, -, ended, -⟩ := turn_of_reuses env (coherent_play env client seats moves) reuses
  obtain ⟨calm, absent⟩ : run.facts.isVolatile = false ∧
      Reuse.isPresent entry.completion (run.document.after run.position) = false := by
    obtain ⟨_, -, rest⟩ := Option.bind_eq_some_iff.mp reuses
    obtain ⟨o, -, hit⟩ := Option.bind_eq_some_iff.mp rest
    obtain ⟨_, looked, same⟩ := Option.map_eq_some_iff.mp hit
    cases same
    unfold lookUp at looked
    split at looked
    · cases looked
    · obtain ⟨-, safe⟩ := Option.filter_eq_some_iff.mp looked
      simp only [Reuse.isUnsafe, Bool.not_eq_true', Bool.or_eq_false_iff] at safe
      exact ⟨safe.1.1, safe.2⟩
  refine ⟨⟨task, woken, ?_⟩, absent, fun shown given => ?_⟩
  · rw [reached_append_singleton]
    exact ended
  have given := Run.insertion_eq_text_iff.mp given
  have visible := Overlap.allBlank_unique given
  obtain rfl := Overlap.unique_of_calm calm given
  refine ⟨Overlap.remove_suffix .., fun present => ?_⟩
  have apart : Overlap.remove entry.completion run.typed ≠ entry.completion := fun same => by
    rw [← Reuse.isPresent_eq_of_visible visible, same, absent] at present
    cases present
  exact ⟨apart, (Overlap.remove_eq_or entry.completion run.typed).resolve_left apart⟩

/-- A line on which the value stands already that the declaration is completed with. -/
def assignedPage : Document := ⟨["const total = 1"], "app.ts", "ts", "typescript"⟩

/-- The reply repeats the whole declaration. -/
abbrev echoingClient : Client := { replies := [⟨["const total = 1"], none⟩] }

/-- The value is wanted twice. -/
def assignedTwice : List Move :=
  [.request 0 assignedPage ⟨0, 14⟩, .turn, .turn, .turn, .request 0 assignedPage ⟨0, 14⟩]

/-- The value comes from the cache although it follows the cursor. -/
theorem assigned_reused_past_echo :
    (∃ task, (reached frozen echoingClient sharedSeats (assignedTwice ++ [.turn])).loop.outcome? task =
      some (.value (.text "1"))) ∧
    startsWith (trim (assignedPage.after ⟨0, 14⟩)) (firstLine (trim "1")) = true ∧
    ("1" : Text) ≠ "const total = 1" := by
  have reuses : (reached frozen echoingClient sharedSeats assignedTwice).reuses? frozen =
      some (.entering frozen whole 0 1 assignedPage ⟨0, 14⟩, ⟨"const total = 1", 0, "const total = "⟩) := by
    decide +kernel
  obtain ⟨⟨task, -, ended⟩, -, ends⟩ :=
    reused_present_only_past_echo frozen echoingClient sharedSeats assignedTwice _ _ reuses
  have present : startsWith (trim (assignedPage.after ⟨0, 14⟩)) (firstLine (trim "1")) = true := by decide
  have shown : (Run.entering frozen whole 0 1 assignedPage ⟨0, 14⟩).insertion "const total = 1" =
    .text "1" := by
    decide +kernel
  exact ⟨⟨task, shown ▸ ended⟩, present, ((ends "1" shown).2 present).1⟩

end Engine

end InlineCompletion
