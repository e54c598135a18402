import InlineCompletion.Proofs.Engine.Whereabouts
import InlineCompletion.Proofs.Reply.Properties
import InlineCompletion.Proofs.Symbol.Reach

/-!
The properties that a prompt offers and those that its reply may have. The prompt lists the properties of the
object as far as the default window reaches, the reply is checked against those in the window of the settings.
The two agree where the brace of the object is in reach of both.
-/

namespace InlineCompletion

open Text

theorem Candidates.isIdentifier_of_mem {owner name : Text} (member : name ∈ Candidates.ofVariable owner) :
    name.IsIdentifier := by
  have named : ∀ name ∈ user ++ config ++ time ++ general, name.IsIdentifier := by decide +kernel
  refine named name ?_
  simp only [List.mem_append]
  unfold ofVariable at member
  dsimp only at member
  split at member
  · exact Or.inl (Or.inl (Or.inl member))
  · split at member
    · exact Or.inl (Or.inl (Or.inr member))
    · split at member
      · exact Or.inl (Or.inr member)
      · exact Or.inr member

/-- A property is asked for only in an object literal, and neither in a log call nor in a string. -/
theorem Place.facts_of_objectProperty {place : Place} (asks : place.kind = .objectProperty) :
    place.classification.inObjectLiteral = true ∧ place.classification.inLogCall = false ∧
      place.classification.inStringLiteral = false := by
  unfold kind at asks
  grind

/-- What a prompt asks for that asks for a property. -/
theorem Prompt.instruction_of_objectProperty {settings : Settings} {document : Document} {position : Position}
    (asks : (preview settings document position).kind = .objectProperty) : ∃ indent,
      (preview settings document position).instruction =
        .property (Property.ownerName document position defaultScanWindow)
          (Property.existing document position defaultScanWindow) indent
          ((Candidates.ofVariable (Property.ownerName document position defaultScanWindow)).filter
            fun candidate => !(Property.existing document position defaultScanWindow).contains candidate) :=
  ⟨_, congrArg (Place.instruct _) asks⟩

/-- A property of this name is dropped because the object is said to have it. -/
def Run.Refuses (run : Run) (existing : List Text) (name : Text) : Prop :=
  ∀ value : Text, value.IsToken →
    Reply.clean (property name value) run.facts run.typed existing = [] ∧
      Reply.clean (property name value) run.facts run.typed [] ≠ []

theorem Run.refuses_iff {run : Run} (inObject : run.facts.inObjectLiteral = true)
    (quiet : run.facts.inLogCall = false) (unquoted : run.facts.inStringLiteral = false) {name : Text}
    (named : name.IsIdentifier) (existing : List Text) : run.Refuses existing name ↔ name ∈ existing := by
  have cleaned (value : Text) (token : value.IsToken) (existing : List Text) :=
    Reply.clean_property named token inObject quiet unquoted run.typed existing
  constructor
  · intro refuses
    have token : IsToken ['v'] := ⟨by simp, List.all_eq_true.mp rfl⟩
    have dropped := (refuses ['v'] token).1
    rw [cleaned ['v'] token] at dropped
    split at dropped
    · next there => exact List.contains_iff_mem.mp there
    · simp at dropped
  · intro there value token
    rw [cleaned value token, cleaned value token, if_pos (List.contains_iff_mem.mpr there)]
    exact ⟨rfl, by simp⟩

namespace Engine

/-- The prompt for a property lists the properties that its reply is checked against just when the brace of
the object stands no more lines above the cursor than the default window has, or there are none. Otherwise it
lists none at all, and offers every name that the reply must not have. -/
theorem offers_agree_in_reach (env : Environment) (client : Client) (seats : List (Settings × Cache Float))
    (past : List Move) (orchestrator : Nat) (document : Document) (position : Position) {settings : Settings}
    {cache : Cache Float} (seat : seats[orchestrator]? = some (settings, cache))
    (asks : (Prompt.preview settings document position).kind = .objectProperty) :
    let task := (reached env client seats past).loop.futures.length
    let made := reached env client seats (past ++ [.request orchestrator document position])
    ∃ owner shown indent offered height,
      (Prompt.preview settings document position).instruction = .property owner shown indent offered ∧
      Scan.braceHeight? (document.linesAbove position settings.scanWindow) = some height ∧
      ∀ before run, (made.play env before).Serves env task run →
        (shown = run.existing settings ↔
          height ≤ defaultScanWindow.toNat ∨ run.existing settings = []) ∧
        ((∃ candidate ∈ offered, run.Refuses (run.existing settings) candidate) ↔
          defaultScanWindow.toNat < height ∧
            ∃ candidate ∈ Candidates.ofVariable owner, candidate ∈ run.existing settings) := by
  intro task made
  obtain ⟨inObject, quiet, unquoted⟩ := Place.facts_of_objectProperty asks
  obtain ⟨index, column, brace⟩ := ObjectLiteral.exists_brace inObject
  have high : Scan.braceHeight? (document.linesAbove position settings.scanWindow) = some _ :=
    congrArg (Option.map _) brace
  obtain ⟨indent, instruction⟩ := Prompt.instruction_of_objectProperty asks
  refine ⟨_, _, _, _, _, instruction, high, fun before run serves => ?_⟩
  have entered := entering_of_serves env client seats past orchestrator document position seat serves
  have facts : run.facts = classify document position settings.scanWindow := congrArg Run.facts entered
  have given : run.existing settings = Property.existing document position settings.scanWindow := by
    unfold Run.existing
    rw [if_pos (facts ▸ inObject), entered]
    rfl
  have refuses {candidate owner : Text} (member : candidate ∈ Candidates.ofVariable owner) :
      run.Refuses (run.existing settings) candidate ↔ candidate ∈ run.existing settings :=
    Run.refuses_iff (facts ▸ inObject) (facts ▸ quiet) (facts ▸ unquoted)
      (Candidates.isIdentifier_of_mem member) _
  have shown := Property.existing_eq_of_height high defaultScanWindow
  rw [← given] at shown
  have offered (owner candidate : Text) (listed : List Text) :
      candidate ∈ (Candidates.ofVariable owner).filter (fun candidate => !listed.contains candidate) ↔
        candidate ∈ Candidates.ofVariable owner ∧ candidate ∉ listed := by
    simp
  simp only [offered]
  generalize Property.existing document position defaultScanWindow = listed at *
  split at shown
  · next near =>
    subst shown
    refine ⟨iff_of_true rfl (Or.inl near), iff_of_false ?_ fun far => absurd near (Nat.not_le_of_lt far.1)⟩
    rintro ⟨candidate, ⟨suits, absent⟩, refused⟩
    exact absent ((refuses suits).mp refused)
  · next far =>
    subst shown
    refine ⟨⟨fun same => Or.inr same.symm, fun none => (none.resolve_left far).symm⟩, fun some => ?_,
      fun some => ?_⟩
    · obtain ⟨candidate, ⟨suits, -⟩, refused⟩ := some
      exact ⟨Nat.lt_of_not_le far, candidate, suits, (refuses suits).mp refused⟩
    · obtain ⟨-, candidate, suits, there⟩ := some
      exact ⟨candidate, ⟨suits, List.not_mem_nil⟩, (refuses suits).mpr there⟩

/-- A window that is wider than the default one. -/
def farSighted : Settings := { whole with scanWindow := 60 }

abbrev farSightedSeats : List (Settings × Cache Float) := [(farSighted, ⟨1, 300, []⟩)]

/-- An object with a name and so many comments that only the wider window reaches its brace. -/
def commentedPage : Document where
  lines := ["const user = \x7b", "  name: 'a',"] ++ List.replicate 51 "  // note" ++ ["  ", "\x7d"]
  fileName := "app.ts"
  extension := "ts"
  language := "typescript"

def commentedRun : Run := .entering frozen farSighted 0 0 commentedPage ⟨53, 2⟩

/-- The prompt offers the name that the object has, and a reply with that name is dropped. -/
theorem offers_refused_beyond_reach : ∃ owner shown indent offered,
    (Prompt.preview farSighted commentedPage ⟨53, 2⟩).instruction = .property owner shown indent offered ∧
    shown ≠ commentedRun.existing farSighted ∧
    ∃ candidate ∈ offered, commentedRun.Refuses (commentedRun.existing farSighted) candidate := by
  have asks : (Prompt.preview farSighted commentedPage ⟨53, 2⟩).kind = .objectProperty := by decide +kernel
  have existing : commentedRun.existing farSighted = [['n', 'a', 'm', 'e']] := by decide +kernel
  have high : Scan.braceHeight? (commentedPage.linesAbove ⟨53, 2⟩ farSighted.scanWindow) = some 53 := by
    decide +kernel
  have first : (reached frozen sharedClient farSightedSeats []).loop.futures.length = 0 := rfl
  obtain ⟨owner, shown, indent, offered, height, instruction, brace, agree⟩ := offers_agree_in_reach frozen
    sharedClient farSightedSeats [] 0 commentedPage ⟨53, 2⟩ rfl asks
  cases high.symm.trans brace
  rw [first, List.nil_append] at agree
  obtain ⟨listed, refused⟩ := agree [.turn, .turn] commentedRun ⟨by decide +kernel, Or.inl (by decide +kernel)⟩
  obtain ⟨_, asked⟩ := Prompt.instruction_of_objectProperty asks
  have owned := (Instruction.property.inj (asked.symm.trans instruction)).1
  have named : ['n', 'a', 'm', 'e'] ∈
      Candidates.ofVariable (Property.ownerName commentedPage ⟨53, 2⟩ defaultScanWindow) := by decide +kernel
  rw [owned] at named
  refine ⟨owner, shown, indent, offered, instruction, fun same => ?_,
    refused.mpr ⟨by decide, _, named, existing ▸ List.mem_singleton_self _⟩⟩
  rcases listed.mp same with near | none
  · exact absurd near (by decide)
  · rw [existing] at none
    cases none

end Engine

end InlineCompletion
