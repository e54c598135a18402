import InlineCompletion.Digest
import InlineCompletion.Proofs.Engine.Entries

/-!
What a request that is answered from the cache has in common with the one that stored the answer. The
key covers all that is near the cursor, but neither the language of the document nor its extension: a
completion made for one kind of file may be given to another.
-/

namespace InlineCompletion.Engine

variable {engine : Engine} {env : Environment} {run : Run} {entry : CacheEntry Float} {seen : List Run}
  {touched : Nat → Prop}

/-- All requests that begin in the course of these moves. -/
def entrants (env : Environment) : Engine → List Move → List Run
  | _, [] => []
  | engine, move :: rest =>
    (engine.entering? env move).toList ++ entrants env (engine.apply env move) rest

/-- The request that the next turn begins, and the entry of the cache that answers it. -/
def reuses? (engine : Engine) (env : Environment) : Option (Run × CacheEntry Float) :=
  (engine.entering? env .turn).bind fun run =>
    (engine.orchestrators[run.orchestrator]?).bind fun o =>
      (engine.lookUp env run o.cache).1.map fun entry => (run, entry)

theorem entrants_append (env : Environment) (engine : Engine) (moves more : List Move) :
    entrants env engine (moves ++ more) =
      entrants env engine moves ++ entrants env (engine.play env moves) more := by
  induction moves generalizing engine with
  | nil => rfl
  | cons move rest ih =>
    have later := ih (engine.apply env move)
    simp only [List.cons_append, entrants, later, List.append_assoc]
    rfl

/-- Every entry that was stored belongs to the request on the list that stored it. -/
structure Sourced (env : Environment) (seen : List Run) (engine : Engine) : Prop where
  numbered : ∀ run ∈ seen, run.request < engine.requests.length
  distinct : ∀ run ∈ seen, ∀ other ∈ seen, run.request = other.request → run = other
  works : ∀ task run, engine.runOf task = some run → run ∈ seen
  placed : ∀ run ∈ seen, ∀ settings entries, engine.stockOf run.orchestrator = some (settings, entries) →
    run = .entering env settings run.orchestrator run.request run.document run.position
  made : ∀ id settings entries, engine.stockOf id = some (settings, entries) →
    ∀ key entry, (key, entry) ∈ entries → ∀ request, storer engine.events id key = some request →
      ∃ run ∈ seen, run.orchestrator = id ∧ run.request = request ∧ run.Makes settings key entry

/-- What was stored last under a key was stored by the author. -/
theorem Supplied.storer {author : Option Run} {told : List Event} {old new : Engine}
    (supplied : Supplied author told old new) (made : run ∈ author) {key : Text}
    (stored : .stored run.orchestrator run.request key ∈ told) :
    storer new.events run.orchestrator key = some run.request := by
  cases latest : InlineCompletion.storer told run.orchestrator key with
  | none => exact absurd latest (storer_ne_none stored)
  | some request =>
    obtain ⟨other, made', -, rfl⟩ := supplied.own _ _ _ (mem_of_storer latest)
    cases made.symm.trans made'
    rw [supplied.events, storer_append, latest]
    rfl

theorem mem_entering? (begun : run ∈ engine.entering? env move) : ∃ o,
    engine.orchestrators[run.orchestrator]? = some o ∧
      run = .entering env o.settings run.orchestrator run.request run.document run.position := by
  cases move with
  | turn =>
    obtain ⟨task, -, rest⟩ := Option.bind_eq_some_iff.mp begun
    obtain ⟨activity, -, enters⟩ := Option.bind_eq_some_iff.mp rest
    obtain ⟨-, o, -, found, placed, -⟩ := starts?_of_mem_enters? enters
    exact ⟨o, found, placed⟩
  | _ => cases begun

/-- One more move: what it stores is from a request on the longer list. -/
theorem Sourced.apply (env : Environment) (sourced : Sourced env seen engine)
    (coherent : engine.Coherent touched none) (move : Move) :
    Sourced env (seen ++ (engine.entering? env move).toList) (engine.apply env move) := by
  have enrolled := enrolled_apply env coherent move
  have grows := requests_length_apply env coherent move
  have placed (run : Run) (member : run ∈ engine.entering? env move) := mem_entering? member
  generalize engine.apply env move = next at *
  generalize engine.entering? env move = begun at *
  obtain ⟨author, told, supplied, own⟩ := enrolled.supplied
  have listed {run : Run} (member : run ∈ seen ++ begun.toList) : run ∈ seen ∨ run ∈ begun :=
    (List.mem_append.mp member).imp_right Option.mem_toList.mp
  have enters {run : Run} (member : run ∈ begun) : run ∈ seen ++ begun.toList :=
    List.mem_append_right _ (Option.mem_toList.mpr member)
  have known {run : Run} (member : run ∈ begun ∨ ∃ task, engine.runOf task = some run) :
      run ∈ seen ++ begun.toList :=
    member.elim enters fun ⟨task, works⟩ => List.mem_append_left _ (sourced.works task run works)
  refine ⟨fun run member => ?_, fun run member other member' same => ?_, fun task run works =>
    known (enrolled.works task run works), fun run member settings entries seated => ?_,
    fun id settings entries seated key entry member request stored => ?_⟩
  · rcases listed member with before | new
    · exact Nat.lt_of_lt_of_le (sourced.numbered run before) grows
    · exact (enrolled.numbered run new).1 ▸ (enrolled.numbered run new).2
  · rcases listed member with before | new <;> rcases listed member' with before' | new'
    · exact sourced.distinct run before other before' same
    · have fresh := same.trans (enrolled.numbered other new').1
      exact absurd (sourced.numbered run before) (Nat.not_lt_of_le (Nat.le_of_eq fresh.symm))
    · have fresh := same.symm.trans (enrolled.numbered run new).1
      exact absurd (sourced.numbered other before') (Nat.not_lt_of_le (Nat.le_of_eq fresh.symm))
    · exact Option.some.inj (new.symm.trans new')
  · obtain ⟨before, seated', -⟩ := supplied.stocks _ settings entries seated
    rcases listed member with old | new
    · exact sourced.placed run old settings before seated'
    · obtain ⟨o, found, entered⟩ := placed run new
      have seated'' : engine.stockOf run.orchestrator = some (o.settings, o.cache.entries) := by
        simp [stockOf, found]
      cases seated'.symm.trans seated''
      exact entered
  · obtain ⟨before, seated', kept⟩ := supplied.stocks id settings entries seated
    rcases kept key entry member with ⟨old, none⟩ | ⟨run, made, rfl, new, makes⟩
    · have earlier : storer engine.events id key = some request := by
        have fresh : storer told id key = Option.none := by
          cases latest : storer told id key with
          | none => rfl
          | some other => exact absurd (mem_of_storer latest) (none other)
        rwa [supplied.events, storer_append, fresh] at stored
      obtain ⟨run, there, mine, same, makes⟩ :=
        sourced.made id settings before seated' key entry old request earlier
      exact ⟨run, List.mem_append_left _ there, mine, same, makes⟩
    · cases (supplied.storer made new).symm.trans stored
      exact ⟨run, known (own run made), rfl, rfl, makes⟩

theorem sourced_play (env : Environment) (client : Client) (seats : List (Settings × Cache Float))
    (moves : List Move) : Sourced env (entrants env (opening client seats) moves)
      (reached env client seats moves) := by
  induction moves using List.reverseRecOn with
  | nil =>
    have nobody (run : Run) : run ∉ entrants env (opening client seats) [] := List.not_mem_nil
    exact ⟨fun run member => absurd member (nobody run), fun run member => absurd member (nobody run),
      fun _ _ works => (by cases works), fun run member => absurd member (nobody run),
      fun _ _ _ _ _ _ _ _ stored => (by cases stored)⟩
  | append_singleton moves move ih =>
    have next := ih.apply env (coherent_play env client seats moves) move
    rw [entrants_append]
    have last : entrants env ((opening client seats).play env moves) [move] =
        ((reached env client seats moves).entering? env move).toList := List.append_nil _
    rw [last]
    have after : reached env client seats (moves ++ [move]) =
        (reached env client seats moves).apply env move := play_append ..
    rw [after]
    exact next

/-! The request that is answered and the one that stored the answer. -/

theorem volatile_eq_false {settings : Settings} {document : Document} {position : Position}
    {orchestrator request : Nat} {key : Text}
    (keyed : (Run.entering env settings orchestrator request document position).key = some key) :
    (classify document position settings.scanWindow).isVolatile = false ∧
      CacheKey.derive env.digest document position (classify document position settings.scanWindow)
        CacheKey.defaultWindow = .ok key := by
  have derived : CacheKey.derive env.digest document position
      (classify document position settings.scanWindow) CacheKey.defaultWindow = .ok key := by
    cases found : CacheKey.derive env.digest document position
        (classify document position settings.scanWindow) CacheKey.defaultWindow with
    | error failure => simp [Run.entering, found, Except.toOption] at keyed
    | ok other =>
      simp only [Run.entering, found, Except.toOption, Option.some.injEq] at keyed
      rw [keyed]
  refine ⟨?_, derived⟩
  unfold CacheKey.derive at derived
  split at derived
  · cases derived
  · next calm => simpa using calm

/-- Where nothing is volatile, a reply is cleaned as code, with its fences or without. -/
theorem clean_eq_of_calm {facts facts' : Classification} (calm : facts.isVolatile = false)
    (calm' : facts'.isVolatile = false) (raw typed : Text) (existing existing' : List Text) :
    Reply.clean raw facts typed existing =
      Reply.clean raw { facts' with category := facts.category } typed existing' := by
  simp only [Classification.isVolatile, Bool.or_eq_false_iff] at calm calm'
  obtain ⟨⟨object, log⟩, string⟩ := calm
  obtain ⟨⟨object', log'⟩, string'⟩ := calm'
  simp only [Reply.clean, Reply.cleanFor, Reply.unwrap, object, log, string, object', log', string',
    Bool.false_eq_true, if_false]

/-- A request that is answered from the cache stands at the same place as the one that stored the
answer, as far as the key covers it: the same coordinates, lines above, text left of the cursor and
property names, and no volatile context. So their classifications agree in all but the comment, which
depends on the language, and the category, which depends on the extension; neither is in the key. The
answer was cleaned for the request it is given to, except that the category of the other one decided
whether code fences were kept. -/
theorem reused_at_same_place (env : Environment) (client : Client)
    (seats : List (Settings × Cache Float)) (moves : List Move)
    (long : ∀ text, 16 ≤ (env.digest text).length)
    (lined : ∀ run ∈ entrants env (opening client seats) (moves ++ [.turn]), run.document.IsLined)
    (discerning : ∀ run ∈ entrants env (opening client seats) (moves ++ [.turn]),
      ∀ other ∈ entrants env (opening client seats) (moves ++ [.turn]),
        CacheKey.Discerning env.digest run.document run.position other.document other.position) :
    ∀ run entry, (reached env client seats moves).reuses? env = some (run, entry) →
      ∃ key, run.key = some key ∧ ∀ author ∈ entrants env (opening client seats) moves,
        storer (reached env client seats moves).events run.orchestrator key = some author.request →
        CacheKey.SamePlace author.document author.position run.document run.position ∧
        run.facts.isVolatile = false ∧ author.facts.isVolatile = false ∧
        run.facts = { author.facts with
          inComment := Comment.isComment author.typed run.document.language
          category := .ofExtension run.document.extension } ∧
        ∃ raw, entry.completion =
          Reply.clean raw { run.facts with category := author.facts.category } run.typed [] := by
  intro run entry reuses
  have sourced := sourced_play env client seats moves
  obtain ⟨_, begun, rest⟩ := Option.bind_eq_some_iff.mp reuses
  obtain ⟨o, found, hit⟩ := Option.bind_eq_some_iff.mp rest
  obtain ⟨_, looked, same⟩ := Option.map_eq_some_iff.mp hit
  cases same
  obtain ⟨o', found', entered⟩ := mem_entering? begun
  cases found.symm.trans found'
  unfold lookUp at looked
  split at looked
  · cases looked
  next key keyed =>
  refine ⟨key, keyed, fun author member stored => ?_⟩
  obtain ⟨got, -⟩ := Option.filter_eq_some_iff.mp looked
  have seated : (reached env client seats moves).stockOf run.orchestrator =
      some (o.settings, o.cache.entries) := by
    simp [stockOf, found]
  -- The author of the entry is the one request on the list with the number of the storer.
  obtain ⟨maker, there, seat, number, makes⟩ := sourced.made _ _ _ seated key entry
    (Cache.mem_of_get o.cache key _ got) author.request stored
  obtain rfl := sourced.distinct maker there author member number
  have placed := sourced.placed maker member o.settings o.cache.entries (seat ▸ seated)
  have facts : run.facts = classify run.document run.position o.settings.scanWindow :=
    congrArg Run.facts entered
  have facts' : maker.facts = classify maker.document maker.position o.settings.scanWindow :=
    congrArg Run.facts placed
  have keyed' := makes.keyed
  rw [entered] at keyed
  rw [placed] at keyed'
  obtain ⟨calm, derived⟩ := volatile_eq_false keyed
  obtain ⟨calm', derived'⟩ := volatile_eq_false keyed'
  have all : entrants env (opening client seats) (moves ++ [.turn]) =
      entrants env (opening client seats) moves ++
        ((reached env client seats moves).entering? env .turn).toList := by
    rw [entrants_append]
    exact congrArg _ (List.append_nil _)
  have here : run ∈ entrants env (opening client seats) (moves ++ [.turn]) :=
    all ▸ List.mem_append_right _ (Option.mem_toList.mpr begun)
  have earlier : maker ∈ entrants env (opening client seats) (moves ++ [.turn]) :=
    all ▸ List.mem_append_left _ member
  have place := CacheKey.samePlace_of_derive long (lined maker earlier) (lined run here)
    (discerning maker earlier run here) derived' derived
  have classified := classify_eq_of_before_eq place.before calm' calm
  obtain ⟨raw, cleaned⟩ := makes.cleaned
  rw [← facts, ← facts'] at classified
  rw [← facts] at calm
  rw [← facts'] at calm'
  refine ⟨place, calm, calm', classified, raw, ?_⟩
  rw [cleaned, clean_eq_of_calm calm' calm raw maker.typed (maker.existing o.settings) []]
  unfold Run.typed
  rw [place.before]

/-- The same empty page in two kinds of files. -/
def scriptPage : Document := ⟨[[]], "app.ts", "ts", "typescript"⟩

def notesPage : Document := ⟨[[]], "notes.md", "md", "markdown"⟩

/-- A completion of the script is stored, and then one of the notes is wanted. -/
def scriptThenNotes : List Move :=
  [.request 0 scriptPage ⟨0, 0⟩, .turn, .turn, .turn, .request 0 notesPage ⟨0, 0⟩]

/-- The clock stands still. -/
def frozen : Environment := ⟨Digest.sha256, fun _ => 0⟩

abbrev sharedClient : Client := { replies := [⟨["x"], none⟩] }

/-- One orchestrator that asks at once, with room for one completion. -/
abbrev sharedSeats : List (Settings × Cache Float) := [(whole, ⟨1, 300, []⟩)]

def scriptRun : Run := .entering frozen whole 0 0 scriptPage ⟨0, 0⟩

def notesRun : Run := .entering frozen whole 0 1 notesPage ⟨0, 0⟩

theorem entrants_scriptThenNotes : entrants frozen (opening sharedClient sharedSeats)
    (scriptThenNotes ++ [.turn]) = [scriptRun, notesRun] := by decide +kernel

theorem notesRun_reuses : (reached frozen sharedClient sharedSeats scriptThenNotes).reuses? frozen =
    some (notesRun, ⟨"x", 0, []⟩) := by decide +kernel

/-- On the two pages the digests cover the same. -/
theorem discerning_scriptThenNotes :
    ∀ run ∈ entrants frozen (opening sharedClient sharedSeats) (scriptThenNotes ++ [.turn]),
      ∀ other ∈ entrants frozen (opening sharedClient sharedSeats) (scriptThenNotes ++ [.turn]),
        CacheKey.Discerning frozen.digest run.document run.position other.document other.position := by
  have covered (run : Run) (member : run ∈ [scriptRun, notesRun]) :
      run.document.linesAbove run.position CacheKey.defaultWindow = [[]] ∧
        CacheKey.neighbourhood run.document run.position = ['\x00'] := by
    simp only [List.mem_cons, List.not_mem_nil, or_false] at member
    rcases member with rfl | rfl <;> decide
  rw [entrants_scriptThenNotes]
  intro run member other member'
  obtain ⟨above, nearby⟩ := covered run member
  obtain ⟨above', nearby'⟩ := covered other member'
  exact ⟨fun _ => by rw [above, above'], fun _ => nearby'.trans nearby.symm⟩

/-- The notes get the completion that was made for the script. -/
theorem notes_at_place_of_script :
    (reached frozen sharedClient sharedSeats scriptThenNotes).reuses? frozen =
      some (notesRun, ⟨"x", 0, []⟩) ∧
    CacheKey.SamePlace scriptPage ⟨0, 0⟩ notesPage ⟨0, 0⟩ := by
  have long (text : Text) : 16 ≤ (frozen.digest text).length := by
    rw [show frozen.digest text = Digest.sha256 text from rfl, Digest.length_sha256]
    decide
  have lined : ∀ run ∈ entrants frozen (opening sharedClient sharedSeats)
      (scriptThenNotes ++ [.turn]), run.document.IsLined := by
    rw [entrants_scriptThenNotes]
    show ∀ run ∈ [scriptRun, notesRun], ∀ line ∈ run.document.lines, '\n' ∉ line
    decide
  obtain ⟨key, keyed, same⟩ := reused_at_same_place frozen sharedClient sharedSeats scriptThenNotes
    long lined discerning_scriptThenNotes notesRun ⟨"x", 0, []⟩ notesRun_reuses
  have last : storer (reached frozen sharedClient sharedSeats scriptThenNotes).events 0 key =
      some scriptRun.request := by
    cases keyed
    decide +kernel
  exact ⟨notesRun_reuses, (same scriptRun (by decide +kernel) last).1⟩

/-- A script and notes, told apart by language and category, share a completion although no two
texts share a digest. -/
theorem completion_crosses_languages :
    (∀ run ∈ entrants frozen (opening sharedClient sharedSeats) (scriptThenNotes ++ [.turn]),
      ∀ other ∈ entrants frozen (opening sharedClient sharedSeats) (scriptThenNotes ++ [.turn]),
        CacheKey.Discerning frozen.digest run.document run.position other.document other.position) ∧
    ∃ run entry key author,
      (reached frozen sharedClient sharedSeats scriptThenNotes).reuses? frozen = some (run, entry) ∧
      run.key = some key ∧
      author ∈ entrants frozen (opening sharedClient sharedSeats) scriptThenNotes ∧
      storer (reached frozen sharedClient sharedSeats scriptThenNotes).events run.orchestrator key =
        some author.request ∧
      author.document.language ≠ run.document.language ∧
      author.facts.category ≠ run.facts.category := by
  refine ⟨discerning_scriptThenNotes, notesRun, ⟨"x", 0, []⟩, _, scriptRun, notesRun_reuses, rfl, ?_⟩
  decide +kernel

end InlineCompletion.Engine
