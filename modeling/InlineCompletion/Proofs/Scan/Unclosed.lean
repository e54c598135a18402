import InlineCompletion.Proofs.Scan.Effects

/-!
Brackets that are never closed, said without a stack: a bracket is closed by the one behind it up to which all others
nest. The stack of a matching holds exactly the brackets that stay open, the last one on top, so that the scan for the
innermost open parenthesis finds the last one that no parenthesis behind it closes.
-/

namespace InlineCompletion.Scan

open Text

/-- No bracket is closed before it was opened, and all are closed in the end. -/
structure Nested (opener closer : Char) (code : Text) : Prop where
  whole : code.count closer = code.count opener
  front : ∀ front, front <+: code → front.count closer ≤ front.count opener

/-- There is an opening bracket at the index, and no closing one behind it belongs to it: between the two, brackets do
not nest. -/
structure NeverClosed (opener closer : Char) (code : Text) (index : Nat) : Prop where
  opens : code[index]? = some opener
  unclosed : ∀ inner more, code.drop (index + 1) = inner ++ closer :: more → ¬ Nested opener closer inner

namespace Matching

variable {α : Type} {opener closer : Char} {code front rest : List (Char × α)} {place : α}

theorem nested_iff (apart : opener ≠ closer) :
    Nested opener closer (code.map Prod.fst) ↔
      (ofCode opener closer code).opened = [] ∧ (ofCode opener closer code).strays = [] := by
  have size := length_opened apart code
  have level (front : List (Char × α)) : 0 ≤ balance opener closer front ↔
      (front.map Prod.fst).count closer ≤ (front.map Prod.fst).count opener := by
    rw [balance]
    omega
  have fronts : (ofCode opener closer code).strays = [] ↔ ∀ front, front <+: code.map Prod.fst →
      front.count closer ≤ front.count opener := by
    simp only [strays_eq_nil_iff apart, level, List.prefix_map_iff]
    constructor
    · rintro given _ ⟨front, before, rfl⟩
      exact given front before
    · exact fun given front before => given _ ⟨front, before, rfl⟩
  rw [balance] at size
  constructor
  · rintro ⟨whole, front⟩
    have none := fronts.mpr front
    rw [none, List.length_nil] at size
    exact ⟨List.eq_nil_of_length_eq_zero (by omega), none⟩
  · rintro ⟨opened, strays⟩
    rw [opened, strays, List.length_nil] at size
    exact ⟨by omega, fronts.mp strays⟩

/-- A code closes nothing in front of it where no closing bracket stands behind brackets that nest. -/
theorem strays_eq_nil_iff_not_nested (apart : opener ≠ closer) :
    (ofCode opener closer code).strays = [] ↔
      ∀ inner more, code.map Prod.fst = inner ++ closer :: more → ¬ Nested opener closer inner := by
  constructor
  · intro none inner more split nested
    have before : inner ++ [closer] <+: code.map Prod.fst := ⟨more, by rw [split]; simp⟩
    obtain ⟨front, part, same⟩ := List.prefix_map_iff.mp before
    have bound := (strays_eq_nil_iff apart).mp none front part
    have whole := nested.whole
    rw [balance, ← same, List.count_append, List.count_append] at bound
    simp only [List.count_singleton_self, List.count_singleton, beq_iff_eq, apart.symm, if_false] at bound
    omega
  · intro free
    -- The first stray would stand where nothing is open.
    induction code using List.reverseRecOn with
    | nil => rfl
    | append_singleton front placed ih =>
      obtain ⟨c, last⟩ := placed
      have before := ih fun inner more split => free inner (more ++ [c]) (by rw [List.map_append, split]; simp)
      rw [ofCode_concat]
      by_cases closes : c = closer
      · subst closes
        cases given : (ofCode opener c front).opened with
        | nil => exact absurd ((nested_iff apart).mpr ⟨given, before⟩) (free _ [] (by simp))
        | cons inner outer => exact (strays_read_closer given last).trans before
      by_cases opens : c = opener
      · rw [opens, read_opener apart]
        exact before
      · rw [read_other opens closes]
        exact before

/-- The open brackets are some of those that were read, the last one first. -/
theorem opened_sublist (code : List (Char × α)) :
    (ofCode opener closer code).opened.Sublist (code.map Prod.snd).reverse := by
  induction code using List.reverseRecOn with
  | nil => exact List.Sublist.refl _
  | append_singleton front placed ih =>
    obtain ⟨c, last⟩ := placed
    rw [ofCode_concat, List.map_append, List.reverse_append, List.map_singleton, List.reverse_singleton,
      List.singleton_append, read]
    split
    · split
      · next none => exact none ▸ List.nil_sublist _
      · next inner outer given =>
        exact ((List.sublist_cons_self inner outer).trans (given ▸ ih)).trans (List.sublist_cons_self ..)
    · split
      · exact ih.cons_cons last
      · exact ih.trans (List.sublist_cons_self ..)

/-- A bracket stays open exactly if what stands behind it does not close what is open in front. -/
theorem mem_opened_iff (apart : opener ≠ closer) (fresh : place ∉ front.map Prod.snd)
    (fresh' : place ∉ rest.map Prod.snd) :
    place ∈ (ofCode opener closer (front ++ (opener, place) :: rest)).opened ↔
      (ofCode opener closer rest).strays = [] := by
  have split : front ++ (opener, place) :: rest = (front ++ [(opener, place)]) ++ rest := by simp
  have none : place ∉ (ofCode opener closer front).opened := fun member =>
    fresh (List.mem_reverse.mp ((opened_sublist front).subset member))
  have none' : place ∉ (ofCode opener closer rest).opened := fun member =>
    fresh' (List.mem_reverse.mp ((opened_sublist rest).subset member))
  rw [split, ofCode, through_append, opened_through apart, ← ofCode, ofCode_concat, read_opener apart, List.mem_append]
  cases given : (ofCode opener closer rest).strays with
  | nil => simp
  | cons stray more =>
    simp only [List.length_cons, List.drop_succ_cons, none', false_or, reduceCtorEq, iff_false]
    exact fun member => none (List.mem_of_mem_drop member)

end Matching

variable {opener closer : Char} {code : Text} {index : Nat}

/-- The stack of a matching holds the brackets that stay open. -/
theorem mem_opened_iff_neverClosed (apart : opener ≠ closer) :
    index ∈ (Matching.ofCode opener closer code.zipIdx).opened ↔ NeverClosed opener closer code index := by
  have around (here : code[index]? = some opener) : index ∈ (Matching.ofCode opener closer code.zipIdx).opened ↔
      ∀ inner more, code.drop (index + 1) = inner ++ closer :: more → ¬ Nested opener closer inner := by
    obtain ⟨inside, here⟩ := List.getElem?_eq_some_iff.mp here
    have size : (code.take index).length = index := List.length_take_of_le inside.le
    have numbered : code.zipIdx =
        (code.take index).zipIdx ++ (opener, index) :: (code.drop (index + 1)).zipIdx (index + 1) := by
      conv_lhs => rw [← List.take_append_drop index code, ← List.getElem_cons_drop inside, here, List.zipIdx_append,
        List.zipIdx_cons, size, Nat.zero_add]
    have fresh : index ∉ (code.take index).zipIdx.map Prod.snd := by
      rw [List.zipIdx_map_snd, List.mem_range'_1, size]
      omega
    have fresh' : index ∉ ((code.drop (index + 1)).zipIdx (index + 1)).map Prod.snd := by
      rw [List.zipIdx_map_snd, List.mem_range'_1]
      omega
    rw [numbered, Matching.mem_opened_iff apart fresh fresh', Matching.strays_eq_nil_iff_not_nested apart,
      List.zipIdx_map_fst]
  constructor
  · intro isOpen
    have here := List.mk_mem_zipIdx_iff_getElem?.mp (Matching.mem_opened apart isOpen)
    exact ⟨here, (around here).mp isOpen⟩
  · rintro ⟨here, unclosed⟩
    exact (around here).mpr unclosed

/-- On top lies the last one of them. -/
theorem head?_opened_eq_some_iff (apart : opener ≠ closer) :
    (Matching.ofCode opener closer code.zipIdx).opened.head? = some index ↔
      NeverClosed opener closer code index ∧ ∀ other, NeverClosed opener closer code other → other ≤ index := by
  have falling : (Matching.ofCode opener closer code.zipIdx).opened.Pairwise (· > ·) := by
    refine List.Pairwise.sublist (Matching.opened_sublist _) ?_
    rw [List.zipIdx_map_snd, List.pairwise_reverse]
    exact List.pairwise_lt_range'
  simp only [← mem_opened_iff_neverClosed apart]
  generalize (Matching.ofCode opener closer code.zipIdx).opened = opened at falling
  cases opened with
  | nil => simp
  | cons top below =>
    have under := (List.pairwise_cons.mp falling).1
    rw [List.head?_cons, Option.some_inj]
    constructor
    · rintro rfl
      exact ⟨List.mem_cons_self .., fun other member =>
        (List.mem_cons.mp member).elim Nat.le_of_eq fun below => (under other below).le⟩
    · rintro ⟨member, last⟩
      refine (List.mem_cons.mp member).elim Eq.symm fun below => ?_
      have behind := last top (List.mem_cons_self ..)
      have before := under index below
      omega

/-- The scan finds the last parenthesis outside of literals that none behind it closes. -/
theorem innermostOpenParen_eq_some_iff (text : Text) (column : Nat) :
    innermostOpenParen text = some column ↔ NeverClosed '(' ')' (blankLiterals text) column ∧
      ∀ other, NeverClosed '(' ')' (blankLiterals text) other → other ≤ column := by
  rw [innermostOpenParen_eq]
  exact head?_opened_eq_some_iff (by decide)

end InlineCompletion.Scan
