import InlineCompletion.Proofs.Scan.Matching
import InlineCompletion.Proofs.Scan.Parens

/-!
What a text does to the parentheses that are open in front of it. Its own open ones lie on top, and every closing one
without a partner takes one of those in front away. A text whose parentheses match does neither, so that the scan for
the innermost open parenthesis does not see it.
-/

namespace InlineCompletion.Scan

open Text Standing

namespace Matching

variable {α : Type} {opener closer : Char} {code : List (Char × α)}

/-- How many more brackets are opened than closed. -/
def balance (opener closer : Char) (code : List (Char × α)) : Int :=
  (code.map Prod.fst).count opener - (code.map Prod.fst).count closer

theorem read_stray {matching : Matching α} (none : matching.opened = []) (place : α) :
    matching.read opener closer (closer, place) = { matching with strays := place :: matching.strays } := by
  simp [read, none]

theorem strays_read_closer {matching : Matching α} {inner : α} {outer : List α} (given : matching.opened = inner :: outer)
    (place : α) : (matching.read opener closer (closer, place)).strays = matching.strays := by
  simp [read, given]

/-- A bracket has no partner only where nothing is open. -/
theorem strays_read (matching : Matching α) (placed : Char × α) :
    (matching.read opener closer placed).strays = matching.strays ∨
      (matching.read opener closer placed).strays = placed.2 :: matching.strays ∧
        (matching.read opener closer placed).opened = [] := by
  unfold read
  split
  · split
    · next none => exact .inr ⟨rfl, none⟩
    · exact .inl rfl
  · split <;> exact .inl rfl

/-- The same brackets at other places. -/
def map {β : Type} (f : α → β) (matching : Matching α) : Matching β :=
  ⟨matching.opened.map f, matching.pairs.map (Prod.map f f), matching.strays.map f⟩

theorem read_map {β : Type} (f : α → β) (matching : Matching α) (placed : Char × α) :
    (matching.map f).read opener closer (Prod.map id f placed) = (matching.read opener closer placed).map f := by
  obtain ⟨opened, pairs, strays⟩ := matching
  unfold read map
  dsimp only [Prod.map_fst, Prod.map_snd, id_eq]
  split
  · cases opened <;> rfl
  · split <;> rfl

theorem ofCode_map {β : Type} (f : α → β) (code : List (Char × α)) :
    ofCode opener closer (code.map (Prod.map id f)) = (ofCode opener closer code).map f := by
  induction code using List.reverseRecOn with
  | nil => rfl
  | append_singleton front placed ih =>
    rw [List.map_append, List.map_singleton, ofCode_concat, ofCode_concat, ih, read_map]

/-- On top lies what a code opens itself, and its strays take away what was open in front of it. -/
theorem opened_through (apart : opener ≠ closer) (matching : Matching α) (code : List (Char × α)) :
    (matching.through opener closer code).opened = (ofCode opener closer code).opened ++
      matching.opened.drop (ofCode opener closer code).strays.length := by
  induction code using List.reverseRecOn with
  | nil => rfl
  | append_singleton front placed ih =>
    obtain ⟨c, place⟩ := placed
    rw [through_concat, ofCode_concat]
    by_cases closes : c = closer
    · rw [closes, opened_read_closer, opened_read_closer, ih]
      cases given : (ofCode opener closer front).opened with
      | nil => rw [read_stray given, List.nil_append, List.tail_drop]; rfl
      | cons inner outer => rw [strays_read_closer given]; rfl
    by_cases opens : c = opener
    · rw [opens, read_opener apart, read_opener apart, ih]
      rfl
    · rw [read_other opens closes, read_other opens closes, ih]

theorem balance_concat (front : List (Char × α)) (c : Char) (place : α) :
    balance opener closer (front ++ [(c, place)]) =
      balance opener closer front + (if c = opener then 1 else 0) - if c = closer then 1 else 0 := by
  simp only [balance, List.map_append, List.map_singleton, List.count_append, List.count_singleton, beq_iff_eq]
  split <;> split <;> omega

theorem length_opened (apart : opener ≠ closer) (code : List (Char × α)) :
    ((ofCode opener closer code).opened.length : Int) - (ofCode opener closer code).strays.length =
      balance opener closer code := by
  induction code using List.reverseRecOn with
  | nil => rfl
  | append_singleton front placed ih =>
    obtain ⟨c, place⟩ := placed
    rw [ofCode_concat, balance_concat, ← ih]
    by_cases closes : c = closer
    · rw [closes, if_neg apart.symm, if_pos rfl]
      cases given : (ofCode opener closer front).opened with
      | nil => simp [read_stray given, given]; omega
      | cons inner outer => simp [strays_read_closer given, opened_read_closer, given]; omega
    by_cases opens : c = opener
    · rw [opens, read_opener apart, if_pos rfl, if_neg apart]
      simp only [List.length_cons]
      omega
    · rw [read_other opens closes, if_neg opens, if_neg closes]
      omega

/-- There are no strays exactly if no front closes more than it opens. -/
theorem strays_eq_nil_iff (apart : opener ≠ closer) :
    (ofCode opener closer code).strays = [] ↔ ∀ front, front <+: code → 0 ≤ balance opener closer front := by
  induction code using List.reverseRecOn with
  | nil => simp [balance, empty]
  | append_singleton front placed ih =>
    obtain ⟨c, place⟩ := placed
    have fronts : (∀ other, other <+: front ++ [(c, place)] → 0 ≤ balance opener closer other) ↔
        0 ≤ balance opener closer (front ++ [(c, place)]) ∧
          ∀ other, other <+: front → 0 ≤ balance opener closer other := by
      simp only [List.prefix_concat_iff, or_imp, forall_and, forall_eq]
    rw [fronts, ← ih, ← length_opened apart, ofCode_concat]
    rcases strays_read (ofCode opener closer front) (c, place) with same | ⟨stray, none⟩
    · rw [same]
      refine ⟨fun given => ⟨?_, given⟩, And.right⟩
      rw [given, List.length_nil]
      omega
    · rw [stray, none, List.length_nil, List.length_cons]
      constructor
      · intro given
        cases given
      · rintro ⟨level, -⟩
        omega

end Matching

/-! Texts whose parentheses match, read from where a scan stands. -/

/-- Read from here on, no parenthesis outside of literals is closed before it was opened, and all are closed in the
end. -/
structure Standing.Nests (standing : Standing) (text : Text) : Prop where
  whole : standing.parens text = 0
  front : ∀ front rest, text = front ++ rest → 0 ≤ standing.parens front

/-- The parentheses of a text match, also where a literal is open in front of it. -/
def NestsAnywhere (text : Text) : Prop :=
  ParensMatch text ∧ ∀ quote, isQuote quote = true → ParensMatch (quote :: text)

theorem forall_isQuote {p : Char → Prop} :
    (∀ quote, isQuote quote = true → p quote) ↔ p singleQuote ∧ p doubleQuote ∧ p backtick := by
  simp only [isQuote, Bool.or_eq_true, decide_eq_true_eq, or_imp, forall_and, forall_eq, and_assoc]

instance (text : Text) : Decidable (NestsAnywhere text) :=
  decidable_of_iff _ (and_congr_right' forall_isQuote.symm)

variable {standing : Standing} {text front : Text} {quote : Char} {column : Nat}

theorem parensMatch_iff : ParensMatch text ↔ outside.Nests text := by
  constructor
  · rintro ⟨whole, fronts⟩
    exact ⟨parenDepth_eq text ▸ whole, fun front rest split => parenDepth_eq front ▸ fronts front rest split⟩
  · rintro ⟨whole, fronts⟩
    exact ⟨(parenDepth_eq text).trans whole, fun front rest split => parenDepth_eq front ▸ fronts front rest split⟩

/-- Behind a quote a text is read as it is in the literal of that quote. -/
theorem parensMatch_cons_quote (given : isQuote quote = true) :
    ParensMatch (quote :: text) ↔ (⟨some quote, false⟩ : Standing).Nests text := by
  have solid : quote ≠ backslash := by
    rintro rfl
    cases given
  have next : outside.read quote = ⟨some quote, false⟩ := by simp [outside, Standing.read, solid, given]
  have depth (text : Text) : outside.parens (quote :: text) = (⟨some quote, false⟩ : Standing).parens text := by
    rw [parens, parens, code, next, marks, next]
    simp
  rw [parensMatch_iff]
  constructor
  · rintro ⟨whole, fronts⟩
    exact ⟨depth text ▸ whole, fun front rest split => depth front ▸ fronts (quote :: front) rest (by rw [split]; rfl)⟩
  · rintro ⟨whole, fronts⟩
    refine ⟨(depth text).trans whole, fun front rest split => ?_⟩
    cases front with
    | nil => exact Int.le_refl _
    | cons c front =>
      obtain ⟨rfl, inside⟩ := List.cons_eq_cons.mp split
      exact depth front ▸ fronts front rest inside

/-- A scan that is not behind a backslash stands outside of all literals or in that of a quote. -/
theorem nestsAnywhere_iff : NestsAnywhere text ↔ ∀ standing : Standing, standing.escaped = false →
    (∀ quote ∈ standing.quote, isQuote quote = true) → standing.Nests text := by
  constructor
  · rintro ⟨free, within⟩ ⟨quote, escaped⟩ rfl known
    cases quote with
    | none => exact parensMatch_iff.mp free
    | some quote => exact (parensMatch_cons_quote (known quote rfl)).mp (within quote (known quote rfl))
  · intro nests
    refine ⟨parensMatch_iff.mpr (nests outside rfl nofun), fun quote given => ?_⟩
    exact (parensMatch_cons_quote given).mpr (nests ⟨some quote, false⟩ rfl (by simpa using given))

/-! The matching of a text that is read from somewhere. -/

/-- The parentheses of a text read from here on, with their columns. -/
def Standing.matching (standing : Standing) (text : Text) : Matching Nat :=
  .ofCode '(' ')' (standing.code text).zipIdx

theorem length_code (standing : Standing) (text : Text) : (standing.code text).length = text.length := by
  induction text generalizing standing with
  | nil => rfl
  | cons c rest ih => rw [code, List.length_cons, List.length_cons, ih]

/-- The front of a code, with its columns, is the code of a front. -/
theorem zipIdx_code_take (standing : Standing) (text : Text) (k : Nat) :
    (standing.code (text.take k)).zipIdx = (standing.code text).zipIdx.take k := by
  have whole : standing.code text = standing.code (text.take k) ++ (standing.through (text.take k)).code (text.drop k) := by
    rw [← code_append, List.take_append_drop]
  by_cases inside : k ≤ text.length
  · rw [whole, List.zipIdx_append]
    exact (List.take_left' (by simp [length_code, inside])).symm
  · rw [List.take_of_length_le (Nat.le_of_not_le inside), List.take_of_length_le]
    simp only [List.length_zipIdx, length_code]
    omega

theorem balance_code (standing : Standing) (text : Text) :
    Matching.balance '(' ')' (standing.code text).zipIdx = standing.parens text := by
  rw [Matching.balance, List.zipIdx_map_fst, parens]

theorem nests_iff : standing.Nests text ↔ (standing.matching text).opened = [] ∧ (standing.matching text).strays = [] := by
  have apart : '(' ≠ ')' := by decide
  have level := Matching.length_opened apart (standing.code text).zipIdx
  rw [balance_code] at level
  have fronts : (standing.matching text).strays = [] ↔ ∀ k, 0 ≤ standing.parens (text.take k) := by
    rw [matching, Matching.strays_eq_nil_iff apart]
    constructor
    · intro given k
      rw [← balance_code standing (text.take k), zipIdx_code_take]
      exact given _ (List.take_prefix ..)
    · intro given front before
      rw [List.prefix_iff_eq_take.mp before, ← zipIdx_code_take, balance_code]
      exact given _
  constructor
  · rintro ⟨whole, front⟩
    have strays := fronts.mpr fun k => front (text.take k) (text.drop k) (List.take_append_drop k text).symm
    refine ⟨List.eq_nil_of_length_eq_zero ?_, strays⟩
    rw [← matching, strays, whole, List.length_nil] at level
    omega
  · rintro ⟨opened, strays⟩
    rw [← matching, opened, strays] at level
    refine ⟨level.symm, fun front rest split => ?_⟩
    have bound := fronts.mp strays front.length
    rwa [split, List.take_left] at bound

/-- The parentheses open at the end of two texts: those of the second one, and those of the first one that its strays
leave. -/
theorem opened_append (front text : Text) :
    (outside.matching (front ++ text)).opened =
      ((outside.through front).matching text).opened.map (· + front.length) ++
        (outside.matching front).opened.drop ((outside.through front).matching text).strays.length := by
  have behind : ((outside.through front).code text).zipIdx front.length =
      ((outside.through front).code text).zipIdx.map (Prod.map id (· + front.length)) := by
    rw [List.map_snd_add_zipIdx_eq_zipIdx, Nat.add_zero]
  rw [matching, code_append, List.zipIdx_append, length_code, Nat.zero_add, Matching.ofCode, Matching.through_append,
    Matching.opened_through (by decide), behind, Matching.ofCode_map]
  simp only [Matching.map, List.length_map]
  rfl

theorem innermostOpenParen_eq_head? (text : Text) : innermostOpenParen text = (outside.matching text).opened.head? := by
  rw [innermostOpenParen_eq, blankLiterals_eq]
  rfl

/-- A text whose parentheses match is not seen. -/
theorem innermostOpenParen_append_of_nests (nests : (outside.through front).Nests text) :
    innermostOpenParen (front ++ text) = innermostOpenParen front := by
  obtain ⟨opened, strays⟩ := nests_iff.mp nests
  rw [innermostOpenParen_eq_head?, innermostOpenParen_eq_head?, opened_append, opened, strays]
  rfl

theorem innermostOpenParen_lt (found : innermostOpenParen text = some column) : column < text.length := by
  rw [innermostOpenParen_eq_head?] at found
  have member := Matching.mem_opened (by decide) (List.mem_of_head? found)
  have inside := (List.getElem?_eq_some_iff.mp (List.mk_mem_zipIdx_iff_getElem?.mp member)).1
  rwa [length_code] at inside

end InlineCompletion.Scan
