import InlineCompletion.Proofs.Scan.Depth
import InlineCompletion.Proofs.Symbol.Keys
import InlineCompletion.Proofs.Symbol.Reach
import InlineCompletion.Proofs.Text.FirstOccurrences

/-!
Which keys the enclosing object is said to have. They are read off the text of every line behind its brace, and
nothing there tells a key of the object itself from one in a nested object, a string or a comment. The names
that come out are the object's own ones only if no other key stands there, or only keys of the same names.
-/

namespace InlineCompletion.Property

open Text

/-- A line behind the brace: as it is written, and without its comment and its literals. -/
structure Row where
  text : Text
  code : Text

def rowsBehind (window : List Text) (index column : Nat) : List Row :=
  match window.drop index with
  | [] => []
  | line :: below =>
    ⟨line.drop (column + 1), (Scan.codeOf line).drop (column + 1)⟩ :: below.map fun line => ⟨line, Scan.codeOf line⟩

/-- A key in one of several rows. -/
structure Place where
  row : Nat
  key : Key
  deriving DecidableEq

def Place.name (place : Place) : Text :=
  place.key.name

def places (rows : List Row) : List Place :=
  rows.zipIdx.flatMap fun numbered => (keysIn numbered.1.text).map (Place.mk numbered.2)

/-- The key is written in the row of its number. -/
def Place.StandsIn (place : Place) (rows : List Row) : Prop :=
  ∃ row, rows[place.row]? = some row ∧ place.key.In row.text

def Place.Before (earlier later : Place) : Prop :=
  earlier.row < later.row ∨ earlier.row = later.row ∧ earlier.key.start < later.key.start

/-- The code in front of a column of a row. -/
def codeBefore : List Row → Nat → Nat → Text
  | [], _, _ => []
  | row :: _, 0, column => row.code.take column
  | row :: below, number + 1, column => row.code ++ codeBefore below number column

/-- The key is not in a string or comment: neither its colon is, nor the brace or comma before it. -/
def Key.IsCode (key : Key) (row : Row) : Prop :=
  row.code[key.colon]? = some ':' ∧
    (row.text[key.start]?.any isMark = true → row.code[key.start]? = row.text[key.start]?)

/-- The key belongs to the object itself: it is code, and every brace that is opened before it is closed. By
`depth_nonneg` the depth of a place is never less than zero. -/
def Place.IsOwn (rows : List Row) (place : Place) : Prop :=
  Scan.depth (codeBefore rows place.row place.key.colon) = 0 ∧ ∃ row ∈ rows[place.row]?, place.key.IsCode row

instance (key : Key) (row : Row) : Decidable (key.IsCode row) :=
  inferInstanceAs (Decidable (_ ∧ _))

instance (rows : List Row) (place : Place) : Decidable (place.IsOwn rows) :=
  inferInstanceAs (Decidable (_ ∧ _))

variable {rows : List Row} {place earlier later : Place} {window : List Text} {index column : Nat}

theorem mem_places : place ∈ places rows ↔ place.StandsIn rows := by
  simp only [places, List.mem_flatMap, List.mem_map, mem_keysIn, Prod.exists, List.mk_mem_zipIdx_iff_getElem?]
  constructor
  · rintro ⟨row, number, there, key, stands, rfl⟩
    exact ⟨row, there, stands⟩
  · rintro ⟨row, there, stands⟩
    exact ⟨row, place.row, there, place.key, stands, rfl⟩

/-- The places come row by row, and from left to right in each. -/
theorem pairwise_places (rows : List Row) : (places rows).Pairwise Place.Before := by
  rw [places, List.pairwise_flatMap]
  constructor
  · intro numbered _
    exact List.pairwise_map.mpr ((pairwise_keysIn _).imp fun less => .inr ⟨rfl, less⟩)
  · have numbers : (rows.zipIdx.map Prod.snd).Pairwise (· < ·) := by
      rw [List.zipIdx_map_snd]
      exact List.pairwise_lt_range'
    refine (List.pairwise_map.mp numbers).imp fun less => ?_
    simp only [List.mem_map]
    rintro _ ⟨_, -, rfl⟩ _ ⟨_, -, rfl⟩
    exact .inl less

theorem Place.Before.not_before (before : earlier.Before later) : ¬ later.Before earlier := by
  unfold Place.Before at *
  omega

/-- What comes before a place is in front of it in the list of places. -/
theorem mem_front {front rest : List Place} (split : places rows = front ++ place :: rest)
    (stands : earlier.StandsIn rows) (before : earlier.Before place) : earlier ∈ front := by
  have ordered := pairwise_places rows
  rw [split, List.pairwise_append, List.pairwise_cons] at ordered
  have member := mem_places.mpr stands
  rw [split, List.mem_append, List.mem_cons] at member
  rcases member with front | rfl | rest
  · exact front
  · exact absurd before before.not_before
  · exact absurd before (ordered.2.1.1 earlier rest).not_before

theorem map_places (rows : List Row) :
    (places rows).map Place.name = rows.flatMap fun row => Variable.captures key row.text := by
  calc (places rows).map Place.name
    _ = rows.zipIdx.flatMap fun numbered => Variable.captures key numbered.1.text := by
      simp [places, List.map_flatMap, captures_key, Function.comp_def, Place.name]
    _ = (rows.zipIdx.map Prod.fst).flatMap fun row => Variable.captures key row.text := by
      rw [List.flatMap_map]
    _ = rows.flatMap fun row => Variable.captures key row.text := by
      rw [List.zipIdx_map_fst]

theorem keysAfter_eq (window : List Text) (index column : Nat) :
    keysAfter window index column = (places (rowsBehind window index column)).map Place.name := by
  rw [map_places, keysAfter, rowsBehind]
  cases window.drop index with
  | nil => rfl
  | cons line below => simp [List.flatMap_map]

/-! The depth of a place. -/

theorem codeBefore_prefix (rows : List Row) (number column : Nat) :
    codeBefore rows number column <+: (rows.map Row.code).flatten := by
  induction rows generalizing number with
  | nil => exact List.prefix_rfl
  | cons row below ih =>
    rw [List.map_cons, List.flatten_cons]
    cases number with
    | zero => exact (List.take_prefix ..).trans (List.prefix_append ..)
    | succ number => exact (List.prefix_append_right_inj _).mpr (ih number)

theorem flatten_rowsBehind (window : List Text) (index column : Nat) :
    ((rowsBehind window index column).map Row.code).flatten = Scan.codeBehind window index column := by
  rw [rowsBehind, Scan.codeBehind]
  cases window.drop index with
  | nil => rfl
  | cons line below => simp [Function.comp_def]

/-- The braces that are opened before a place and not closed again are never fewer than none. -/
theorem depth_nonneg (found : Scan.unmatchedBrace window = some (index, column)) (number start : Nat) :
    0 ≤ Scan.depth (codeBefore (rowsBehind window index column) number start) := by
  refine (Scan.balanced_of_unmatchedBrace found).2.2 _ ?_
  rw [← flatten_rowsBehind]
  exact codeBefore_prefix ..

/-! What is listed. -/

/-- The names that are listed are those of all keys behind the brace, each once, where it stands first. They are
the names of the object's own keys exactly if every other key has the name of an own one, and in the same order if
such a one stands before it. -/
theorem existing_own_iff {document : Document} {position : Position} {window : Int}
    (found : Scan.unmatchedBrace (document.linesAbove position window) = some (index, column)) :
    let rows := rowsBehind (document.linesAbove position window) index column
    let listed := existing document position window
    listed.Nodup ∧ listed = firstOccurrences ((places rows).map Place.name) ∧
      (∀ name, name ∈ listed ↔ ∃ place : Place, place.StandsIn rows ∧ place.name = name) ∧
      ((∀ name, name ∈ listed ↔ ∃ own : Place, own.StandsIn rows ∧ own.IsOwn rows ∧ own.name = name) ↔
        ∀ place : Place, place.StandsIn rows → ¬ place.IsOwn rows →
          ∃ own : Place, own.StandsIn rows ∧ own.IsOwn rows ∧ own.name = place.name) ∧
      ((∀ place : Place, place.StandsIn rows → ¬ place.IsOwn rows →
          ∃ own : Place, own.StandsIn rows ∧ own.IsOwn rows ∧ own.Before place ∧ own.name = place.name) →
        listed = firstOccurrences (((places rows).filter fun place => place.IsOwn rows).map Place.name)) := by
  intro rows listed
  have all : listed = firstOccurrences ((places rows).map Place.name) := by
    rw [← keysAfter_eq]
    exact existing_of_brace found
  have mem_listed (name : Text) : name ∈ listed ↔ ∃ place : Place, place.StandsIn rows ∧ place.name = name := by
    simp only [all, mem_firstOccurrences, List.mem_map, mem_places]
  refine ⟨all ▸ nodup_firstOccurrences _, all, mem_listed, ?_, fun led => ?_⟩
  · constructor
    · intro exact place stands _
      exact (exact place.name).mp ((mem_listed _).mpr ⟨place, stands, rfl⟩)
    · intro repeated name
      rw [mem_listed]
      constructor
      · rintro ⟨place, stands, rfl⟩
        by_cases own : place.IsOwn rows
        · exact ⟨place, stands, own, rfl⟩
        · exact repeated place stands own
      · rintro ⟨own, stands, -, rfl⟩
        exact ⟨own, stands, rfl⟩
  · rw [all]
    refine firstOccurrences_map_filter fun front place rest split foreign => ?_
    have stands : place.StandsIn rows := mem_places.mp (by simp [split])
    obtain ⟨own, there, owns, before, same⟩ := led place stands (of_decide_eq_false foreign)
    exact ⟨own, mem_front split there before, decide_eq_true owns, same⟩

/-- An object with another one in it, a string and a comment. -/
def nestedPage : Document :=
  .ofText "const cfg = \x7b\n  db: \x7b host: 'h' \x7d,\n  s: \", fake: 1\", // , old: 2\n  " "cfg.ts" none

abbrev nestedRows : List Row :=
  rowsBehind (nestedPage.linesAbove ⟨3, 2⟩ 50) 0 12

/-- Of the names that are listed here the object itself has two. -/
theorem existing_own_iff_nested :
    Scan.unmatchedBrace (nestedPage.linesAbove ⟨3, 2⟩ 50) = some (0, 12) ∧
      existing nestedPage ⟨3, 2⟩ 50 = (["db", "host", "s", "fake", "old"] : List Text) ∧
      ((places nestedRows).filter fun place => place.IsOwn nestedRows).map Place.name = (["db", "s"] : List Text) ∧
      ¬ ∀ name, name ∈ existing nestedPage ⟨3, 2⟩ 50 ↔
          ∃ own : Place, own.StandsIn nestedRows ∧ own.IsOwn nestedRows ∧ own.name = name := by
  have found : Scan.unmatchedBrace (nestedPage.linesAbove ⟨3, 2⟩ 50) = some (0, 12) := by decide +kernel
  obtain ⟨-, listed, -, agrees, -⟩ := existing_own_iff found
  have names : ((places nestedRows).filter fun place => place.IsOwn nestedRows).map Place.name =
      (["db", "s"] : List Text) := by decide +kernel
  refine ⟨found, listed.trans (by decide +kernel), names, fun exact => ?_⟩
  let host : Place := ⟨1, "host", 6, 12⟩
  have stands : host.StandsIn nestedRows := mem_places.mp (by decide +kernel)
  obtain ⟨own, there, owns, same⟩ := agrees.mp exact host stands (by decide +kernel)
  have member : own.name ∈ ((places nestedRows).filter fun place => place.IsOwn nestedRows).map Place.name :=
    List.mem_map.mpr ⟨own, List.mem_filter.mpr ⟨mem_places.mpr there, decide_eq_true owns⟩, rfl⟩
  rw [names, same] at member
  revert member
  decide

end InlineCompletion.Property
