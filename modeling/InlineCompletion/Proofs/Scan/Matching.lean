import InlineCompletion.Proofs.Scan.Marks
import Mathlib.Data.List.Induction

/-!
Brackets matched from left to right, with a stack of those that are still open. The scans for the innermost open
parenthesis and for the enclosing brace find the top of this stack. The second one reads from right to left and
counts, and gives up at a semicolon behind which no brace is closed that was opened in front of it.
-/

namespace InlineCompletion.Scan

open Text

/-- Brackets matched so far: the open ones, innermost first, each closing one with the bracket that it closes, and
the closing ones for which none was open. -/
structure Matching (α : Type) where
  opened : List α
  pairs : List (α × α)
  strays : List α

namespace Matching

variable {α : Type} {opener closer : Char}

def empty : Matching α := ⟨[], [], []⟩

/-- A closing bracket closes the innermost open one, if there is any. -/
def read (opener closer : Char) (matching : Matching α) (placed : Char × α) : Matching α :=
  if placed.1 = closer then
    match matching.opened with
    | [] => { matching with strays := placed.2 :: matching.strays }
    | inner :: outer => { matching with opened := outer, pairs := (inner, placed.2) :: matching.pairs }
  else if placed.1 = opener then { matching with opened := placed.2 :: matching.opened }
  else matching

def through (opener closer : Char) (matching : Matching α) (code : List (Char × α)) : Matching α :=
  code.foldl (read opener closer) matching

/-- The brackets of a code whose characters have places. -/
def ofCode (opener closer : Char) (code : List (Char × α)) : Matching α :=
  through opener closer empty code

variable {code front : List (Char × α)} {place opening closing : α}

@[simp] theorem ofCode_nil : ofCode opener closer ([] : List (Char × α)) = empty := rfl

theorem through_append (matching : Matching α) (front rest : List (Char × α)) :
    matching.through opener closer (front ++ rest) =
      (matching.through opener closer front).through opener closer rest :=
  List.foldl_append

theorem through_concat (matching : Matching α) (front : List (Char × α)) (placed : Char × α) :
    matching.through opener closer (front ++ [placed]) =
      (matching.through opener closer front).read opener closer placed :=
  through_append matching front [placed]

theorem ofCode_concat (front : List (Char × α)) (placed : Char × α) :
    ofCode opener closer (front ++ [placed]) = (ofCode opener closer front).read opener closer placed :=
  through_concat empty front placed

theorem read_opener (apart : opener ≠ closer) (matching : Matching α) (place : α) :
    matching.read opener closer (opener, place) = { matching with opened := place :: matching.opened } := by
  simp [read, apart]

theorem read_other {c : Char} (opens : c ≠ opener) (closes : c ≠ closer) (matching : Matching α) (place : α) :
    matching.read opener closer (c, place) = matching := by
  simp [read, opens, closes]

theorem opened_read_closer (matching : Matching α) (place : α) :
    (matching.read opener closer (closer, place)).opened = matching.opened.tail := by
  simp only [read, if_true]
  cases matching.opened <;> rfl

theorem mem_pairs_read_closer {matching : Matching α} :
    (opening, closing) ∈ (matching.read opener closer (closer, place)).pairs ↔
      matching.opened.head? = some opening ∧ place = closing ∨ (opening, closing) ∈ matching.pairs := by
  simp only [read, if_true]
  cases given : matching.opened <;> simp [eq_comm]

theorem mem_opened (apart : opener ≠ closer) (isOpen : place ∈ (ofCode opener closer code).opened) :
    (opener, place) ∈ code := by
  induction code using List.reverseRecOn with
  | nil => cases isOpen
  | append_singleton front placed ih =>
    obtain ⟨c, last⟩ := placed
    rw [ofCode_concat] at isOpen
    by_cases closes : c = closer
    · rw [closes, opened_read_closer] at isOpen
      exact List.mem_append_left _ (ih (List.mem_of_mem_tail isOpen))
    by_cases opens : c = opener
    · rw [opens, read_opener apart] at isOpen
      rcases List.mem_cons.mp isOpen with rfl | before
      · simp [opens]
      · exact List.mem_append_left _ (ih before)
    · rw [read_other opens closes] at isOpen
      exact List.mem_append_left _ (ih isOpen)

theorem mem_pairs (apart : opener ≠ closer) (pair : (opening, closing) ∈ (ofCode opener closer code).pairs) :
    (closer, closing) ∈ code := by
  induction code using List.reverseRecOn with
  | nil => cases pair
  | append_singleton front placed ih =>
    obtain ⟨c, last⟩ := placed
    rw [ofCode_concat] at pair
    by_cases closes : c = closer
    · rw [closes, mem_pairs_read_closer] at pair
      rcases pair with ⟨-, rfl⟩ | before
      · simp [closes]
      · exact List.mem_append_left _ (ih before)
    by_cases opens : c = opener
    · rw [opens, read_opener apart] at pair
      exact List.mem_append_left _ (ih pair)
    · rw [read_other opens closes] at pair
      exact List.mem_append_left _ (ih pair)

end Matching

/-! Parentheses. -/

/-- The scan for parentheses keeps the stack of a matching of the unmarked characters. -/
theorem openParens_eq (marked : List (Char × Bool)) (column : Nat) (matching : Matching Nat) :
    openParens marked column matching.opened =
      (matching.through '(' ')' ((marked.map fun c => if c.2 then ' ' else c.1).zipIdx column)).opened := by
  induction marked generalizing column matching with
  | nil => rfl
  | cons c rest ih =>
    obtain ⟨c, masked⟩ := c
    have step : (if masked then matching.opened else if c = '(' then column :: matching.opened
        else if c = ')' then matching.opened.tail else matching.opened) =
        (matching.read '(' ')' (if masked then ' ' else c, column)).opened := by
      cases masked with
      | true => rfl
      | false =>
        by_cases opens : c = '('
        · subst opens
          rfl
        by_cases closes : c = ')'
        · subst closes
          exact (Matching.opened_read_closer matching column).symm
        · simp [opens, closes, Matching.read_other]
    rw [openParens, step, ih]
    rfl

/-- The innermost open parenthesis is the last one left open by a matching of what is no literal. -/
theorem innermostOpenParen_eq (text : Text) :
    innermostOpenParen text = (Matching.ofCode '(' ')' (blankLiterals text).zipIdx).opened.head? := by
  have blanked : (text.zip (literalMask text)).map (fun c => if c.2 then ' ' else c.1) = blankLiterals text := by
    rw [blankLiterals, List.zip_eq_zipWith, List.map_zipWith]
  rw [innermostOpenParen, Matching.ofCode, ← blanked]
  exact congrArg List.head? (openParens_eq (text.zip (literalMask text)) 0 Matching.empty)

/-! Braces of a window. -/

/-- Places in a window as they follow one another: line by line, and from left to right in each. -/
def Before (earlier later : Nat × Nat) : Prop :=
  earlier.1 < later.1 ∨ earlier.1 = later.1 ∧ earlier.2 < later.2

/-- The code of a line, each character with its line and column. -/
def placedLine (line : Text) (row : Nat) : List (Char × Nat × Nat) :=
  (codeOf line).zipIdx.map fun numbered => (numbered.1, row, numbered.2)

/-- The code of all lines, each character with its line and column. -/
def placed (window : List Text) : List (Char × Nat × Nat) :=
  window.zipIdx.flatMap fun numbered => placedLine numbered.1 numbered.2

/-- The character that is seen at a place, once comments are dropped and literals are blanked. -/
def SeenAt (window : List Text) (place : Nat × Nat) (c : Char) : Prop :=
  ∃ line, window[place.1]? = some line ∧ (codeOf line)[place.2]? = some c

/-- The braces of a window, matched from left to right. -/
def braces (window : List Text) : Matching (Nat × Nat) :=
  .ofCode openBrace closeBrace (placed window)

/-- A semicolon that ends a scan from the right: every brace closed behind it was opened behind it. -/
def Ends (window : List Text) (semicolon : Nat × Nat) : Prop :=
  SeenAt window semicolon ';' ∧ ∀ closing, SeenAt window closing closeBrace → Before semicolon closing →
    ∃ opening, (opening, closing) ∈ (braces window).pairs ∧ Before semicolon opening ∧ Before opening closing

variable {window : List Text} {place semicolon : Nat × Nat} {c : Char} {depth : Nat}

theorem Before.irrefl (place : Nat × Nat) : ¬ Before place place := by
  unfold Before
  omega

theorem Before.asymm {earlier later : Nat × Nat} (before : Before earlier later) : ¬ Before later earlier := by
  unfold Before at *
  omega

theorem mem_placed : (c, place) ∈ placed window ↔ SeenAt window place c := by
  obtain ⟨row, column⟩ := place
  simp only [placed, placedLine, List.mem_flatMap, List.mem_map, Prod.exists, List.mk_mem_zipIdx_iff_getElem?, SeenAt]
  constructor
  · rintro ⟨line, _, there, d, _, seen, same⟩
    cases same
    exact ⟨line, there, seen⟩
  · rintro ⟨line, there, seen⟩
    exact ⟨line, row, there, c, column, seen, rfl⟩

theorem pairwise_placed (window : List Text) : (placed window).Pairwise fun a b => Before a.2 b.2 := by
  have numbers {β : Type} (l : List β) : l.zipIdx.Pairwise fun a b => a.2 < b.2 := by
    rw [← List.pairwise_map (f := Prod.snd) (R := (· < ·)), List.zipIdx_map_snd]
    exact List.pairwise_lt_range'
  rw [placed, List.pairwise_flatMap]
  constructor
  · intro numbered _
    exact List.pairwise_map.mpr ((numbers _).imp fun less => .inr ⟨rfl, less⟩)
  · refine (numbers window).imp fun less => ?_
    simp only [placedLine, List.mem_map]
    rintro _ ⟨_, -, rfl⟩ _ ⟨_, -, rfl⟩
    exact .inl less

/-! The scan from the right. -/

/-- The scan over the lines of a window, as one over its characters from the last one on. -/
def seekBack {α : Type} : Nat → List (Char × α) → Option α
  | _, [] => none
  | depth, (c, place) :: before =>
    if c = closeBrace then seekBack (depth + 1) before
    else if c = openBrace then
      match depth with
      | 0 => some place
      | outer + 1 => seekBack outer before
    else if c = ';' && depth = 0 then none
    else seekBack depth before

/-- How a scan goes on above a line that was read from its end. -/
def BraceScan.resume (row : Nat) (before : List (Char × Nat × Nat)) : BraceScan → Option (Nat × Nat)
  | .found column => some (row, column)
  | .stopped => none
  | .seeking depth => seekBack depth before

theorem seekBack_line (line : Text) (row depth : Nat) (before : List (Char × Nat × Nat)) :
    seekBack depth ((placedLine line row).reverse ++ before) =
      (seekBrace depth (codeOf line).reverse).resume row before := by
  unfold placedLine
  induction codeOf line using List.reverseRecOn generalizing depth with
  | nil => rfl
  | append_singleton code c ih =>
    simp only [List.zipIdx_append, List.zipIdx_singleton, List.map_append, List.map_singleton, List.reverse_append,
      List.reverse_singleton, List.cons_append, List.nil_append, Nat.zero_add]
    rw [seekBack.eq_def, seekBrace.eq_def]
    dsimp only
    by_cases closes : c = closeBrace
    · rw [if_pos closes, if_pos closes, ih]
    by_cases opens : c = openBrace
    · rw [if_neg closes, if_neg closes, if_pos opens, if_pos opens]
      cases depth with
      | zero => simp [BraceScan.resume]
      | succ outer => exact ih outer
    · rw [if_neg closes, if_neg closes, if_neg opens, if_neg opens]
      split
      · rfl
      · exact ih depth

theorem seekBack_placed (upwards : List Text) (depth : Nat) :
    seekBack depth (placed upwards.reverse).reverse = seekBraceUp depth upwards := by
  induction upwards generalizing depth with
  | nil => rfl
  | cons line above ih =>
    have split : (placed (line :: above).reverse).reverse =
        (placedLine line above.length).reverse ++ (placed above.reverse).reverse := by
      simp [placed, List.zipIdx_append]
    rw [split, seekBack_line, seekBraceUp]
    cases seekBrace depth (codeOf line).reverse with
    | found column => rfl
    | stopped => rfl
    | seeking deeper => exact ih deeper

theorem unmatchedBrace_eq (window : List Text) : unmatchedBrace window = seekBack 0 (placed window).reverse := by
  rw [unmatchedBrace, ← seekBack_placed, List.reverse_reverse]

/-! What the scan from the right has found out, in terms of the matching of all that it has not read. -/

/-- With closing braces behind this code that are not matched in it yet, a semicolon in the code ends the scan:
all that is closed behind it, in the code or behind that, was opened behind it. -/
structure Stops (code : List (Char × Nat × Nat)) (depth : Nat) (semicolon : Nat × Nat) : Prop where
  matched : ∀ closing, (closeBrace, closing) ∈ code → Before semicolon closing →
    ∃ opening, (opening, closing) ∈ (Matching.ofCode openBrace closeBrace code).pairs ∧ Before semicolon opening
  pending : ∀ i < depth, ∃ opening,
    (Matching.ofCode openBrace closeBrace code).opened[i]? = some opening ∧ Before semicolon opening

variable {front code : List (Char × Nat × Nat)} {last : Nat × Nat}

theorem braces_apart : openBrace ≠ closeBrace := by decide

/-- A closing brace at the end of the code is one more that waits for its partner. -/
theorem stops_concat_closing (later : ∀ earlier ∈ front, Before earlier.2 last) (inside : (';', semicolon) ∈ front) :
    Stops (front ++ [(closeBrace, last)]) depth semicolon ↔ Stops front (depth + 1) semicolon := by
  have fresh {opening : Nat × Nat} : (opening, last) ∉ (Matching.ofCode openBrace closeBrace front).pairs :=
    fun pair => Before.irrefl last (later _ (Matching.mem_pairs braces_apart pair))
  constructor
  · rintro ⟨matched, pending⟩
    rw [Matching.ofCode_concat] at matched pending
    obtain ⟨inner, pair, behind⟩ := matched last (by simp) (later _ inside)
    have partner := (Matching.mem_pairs_read_closer.mp pair).resolve_right fresh
    refine ⟨fun closing member after => ?_, fun i less => ?_⟩
    · obtain ⟨opening, pair, behind⟩ := matched closing (List.mem_append_left _ member) after
      refine ⟨opening, (Matching.mem_pairs_read_closer.mp pair).resolve_left ?_, behind⟩
      rintro ⟨-, rfl⟩
      exact Before.irrefl last (later _ member)
    · cases i with
      | zero => exact ⟨inner, by rw [← List.head?_eq_getElem?]; exact partner.1, behind⟩
      | succ i =>
        have waits := pending i (Nat.lt_of_succ_lt_succ less)
        rwa [Matching.opened_read_closer, List.getElem?_tail] at waits
  · rintro ⟨matched, pending⟩
    refine ⟨fun closing member after => ?_, fun i less => ?_⟩ <;> rw [Matching.ofCode_concat]
    · rcases List.mem_append.mp member with before | here
      · obtain ⟨opening, pair, behind⟩ := matched closing before after
        exact ⟨opening, Matching.mem_pairs_read_closer.mpr (.inr pair), behind⟩
      · obtain ⟨inner, waits, behind⟩ := pending 0 (Nat.zero_lt_succ depth)
        obtain rfl : closing = last := by simpa using here
        exact ⟨inner, Matching.mem_pairs_read_closer.mpr (.inl ⟨by rw [List.head?_eq_getElem?]; exact waits, rfl⟩), behind⟩
    · rw [Matching.opened_read_closer, List.getElem?_tail]
      exact pending (i + 1) (Nat.succ_lt_succ less)

/-- An opening brace at the end of the code is the partner of one that waits. -/
theorem stops_concat_opening (later : ∀ earlier ∈ front, Before earlier.2 last) (inside : (';', semicolon) ∈ front) :
    Stops (front ++ [(openBrace, last)]) (depth + 1) semicolon ↔ Stops front depth semicolon := by
  have same (closing : Nat × Nat) : (closeBrace, closing) ∈ front ++ [(openBrace, last)] ↔ (closeBrace, closing) ∈ front := by
    simp [braces_apart.symm]
  constructor
  · rintro ⟨matched, pending⟩
    rw [Matching.ofCode_concat, Matching.read_opener braces_apart] at matched pending
    refine ⟨fun closing member => matched closing ((same closing).mpr member), fun i less => ?_⟩
    exact pending (i + 1) (Nat.succ_lt_succ less)
  · rintro ⟨matched, pending⟩
    refine ⟨fun closing member => ?_, fun i less => ?_⟩ <;>
      rw [Matching.ofCode_concat, Matching.read_opener braces_apart]
    · exact matched closing ((same closing).mp member)
    · cases i with
      | zero => exact ⟨last, rfl, later _ inside⟩
      | succ i => exact pending i (Nat.lt_of_succ_lt_succ less)

/-- Other characters change nothing. -/
theorem stops_concat_other (opens : c ≠ openBrace) (closes : c ≠ closeBrace) :
    Stops (front ++ [(c, last)]) depth semicolon ↔ Stops front depth semicolon := by
  have same (closing : Nat × Nat) : (closeBrace, closing) ∈ front ++ [(c, last)] ↔ (closeBrace, closing) ∈ front := by
    simp [closes.symm]
  have kept : Matching.ofCode openBrace closeBrace (front ++ [(c, last)]) = Matching.ofCode openBrace closeBrace front := by
    rw [Matching.ofCode_concat, Matching.read_other opens closes]
  exact ⟨fun ⟨matched, pending⟩ => ⟨fun closing member => kept ▸ matched closing ((same closing).mpr member), kept ▸ pending⟩,
    fun ⟨matched, pending⟩ => ⟨fun closing member => kept ▸ matched closing ((same closing).mp member), kept ▸ pending⟩⟩

/-- A semicolon at the end of the code ends a scan for which no closing brace waits, and no other one. -/
theorem stops_concat_semicolon (later : ∀ earlier ∈ front, Before earlier.2 last) :
    Stops (front ++ [(';', last)]) depth last ↔ depth = 0 := by
  constructor
  · rintro ⟨-, pending⟩
    by_contra waiting
    obtain ⟨opening, waits, behind⟩ := pending 0 (Nat.pos_of_ne_zero waiting)
    rw [Matching.ofCode_concat, Matching.read_other (by decide) (by decide)] at waits
    exact behind.asymm (later _ (Matching.mem_opened braces_apart (List.mem_of_getElem? waits)))
  · rintro rfl
    refine ⟨fun closing member after => ?_, fun i less => absurd less (Nat.not_lt_zero i)⟩
    rcases List.mem_append.mp member with before | here
    · exact absurd (later _ before) after.asymm
    · exact absurd (List.mem_singleton.mp here) (by simp [closeBrace])

/-- The brace that the matching has open below as many others as closing braces wait, if no semicolon behind it ends
the scan. -/
def Lands (code : List (Char × Nat × Nat)) (depth : Nat) (place : Nat × Nat) : Prop :=
  (Matching.ofCode openBrace closeBrace code).opened[depth]? = some place ∧
    ∀ semicolon, (';', semicolon) ∈ code → Before place semicolon → ¬ Stops code depth semicolon

theorem lands_concat_closing (later : ∀ earlier ∈ front, Before earlier.2 last) :
    Lands (front ++ [(closeBrace, last)]) depth place ↔ Lands front (depth + 1) place := by
  have inside (semicolon : Nat × Nat) :
      (';', semicolon) ∈ front ++ [(closeBrace, last)] ↔ (';', semicolon) ∈ front := by simp [closeBrace]
  rw [Lands, Matching.ofCode_concat, Matching.opened_read_closer, List.getElem?_tail]
  refine and_congr_right fun _ => forall_congr' fun semicolon => ?_
  rw [inside]
  exact forall_congr' fun member => by rw [stops_concat_closing later member]

theorem lands_concat_opening (later : ∀ earlier ∈ front, Before earlier.2 last) :
    Lands (front ++ [(openBrace, last)]) (depth + 1) place ↔ Lands front depth place := by
  have inside (semicolon : Nat × Nat) :
      (';', semicolon) ∈ front ++ [(openBrace, last)] ↔ (';', semicolon) ∈ front := by simp [openBrace]
  rw [Lands, Matching.ofCode_concat, Matching.read_opener braces_apart, List.getElem?_cons_succ]
  refine and_congr_right fun _ => forall_congr' fun semicolon => ?_
  rw [inside]
  exact forall_congr' fun member => by rw [stops_concat_opening later member]

theorem lands_concat_innermost (later : ∀ earlier ∈ front, Before earlier.2 last) :
    Lands (front ++ [(openBrace, last)]) 0 place ↔ last = place := by
  rw [Lands, Matching.ofCode_concat, Matching.read_opener braces_apart]
  constructor
  · rintro ⟨innermost, -⟩
    exact Option.some_inj.mp innermost
  · rintro rfl
    refine ⟨rfl, fun semicolon member behind => ?_⟩
    rcases List.mem_append.mp member with before | here
    · exact absurd (later _ before) behind.asymm
    · exact absurd (List.mem_singleton.mp here) (by simp [openBrace])

theorem not_lands_concat_semicolon (later : ∀ earlier ∈ front, Before earlier.2 last) :
    ¬ Lands (front ++ [(';', last)]) 0 place := by
  rintro ⟨innermost, free⟩
  rw [Matching.ofCode_concat, Matching.read_other (by decide) (by decide)] at innermost
  have before := later _ (Matching.mem_opened braces_apart (List.mem_of_getElem? innermost))
  exact free last (by simp) before ((stops_concat_semicolon later).mpr rfl)

theorem lands_concat_other (later : ∀ earlier ∈ front, Before earlier.2 last) (opens : c ≠ openBrace)
    (closes : c ≠ closeBrace) (free : ¬ (c = ';' ∧ depth = 0)) :
    Lands (front ++ [(c, last)]) depth place ↔ Lands front depth place := by
  rw [Lands, Matching.ofCode_concat, Matching.read_other opens closes]
  refine and_congr_right fun _ => forall_congr' fun semicolon => ?_
  rw [stops_concat_other opens closes, List.mem_append, List.mem_singleton]
  refine ⟨fun passed member => passed (.inl member), fun passed member behind stops => ?_⟩
  rcases member with before | here
  · exact passed before behind stops
  · obtain ⟨rfl, rfl⟩ := Prod.mk.inj here
    exact free ⟨rfl, (stops_concat_semicolon later).mp ((stops_concat_other opens closes).mpr stops)⟩

/-- By induction from the right, the scan finds the brace on which it lands. -/
theorem seekBack_eq_some_iff (ordered : code.Pairwise fun a b => Before a.2 b.2) (depth : Nat) :
    seekBack depth code.reverse = some place ↔ Lands code depth place := by
  induction code using List.reverseRecOn generalizing depth with
  | nil => simp [seekBack, Lands, Matching.empty]
  | append_singleton front placed ih =>
    obtain ⟨c, last⟩ := placed
    obtain ⟨before, -, order⟩ := List.pairwise_append.mp ordered
    have later : ∀ earlier ∈ front, Before earlier.2 last := fun earlier member => order _ member (c, last) (by simp)
    rw [List.reverse_append, List.reverse_singleton, List.singleton_append, seekBack.eq_def]
    dsimp only
    by_cases closes : c = closeBrace
    · subst closes
      rw [if_pos rfl, ih before, lands_concat_closing later]
    by_cases opens : c = openBrace
    · subst opens
      rw [if_neg closes, if_pos rfl]
      cases depth with
      | zero => rw [lands_concat_innermost later, Option.some_inj]
      | succ outer => rw [ih before, lands_concat_opening later]
    rw [if_neg closes, if_neg opens]
    by_cases ended : c = ';' ∧ depth = 0
    · obtain ⟨rfl, rfl⟩ := ended
      simp [not_lands_concat_semicolon later]
    · rw [if_neg (by simpa using ended), ih before, lands_concat_other later opens closes ended]

/-! The window. -/

theorem before_of_mem_pairs {opening closing : Nat × Nat} (ordered : code.Pairwise fun a b => Before a.2 b.2)
    (pair : (opening, closing) ∈ (Matching.ofCode openBrace closeBrace code).pairs) : Before opening closing := by
  induction code using List.reverseRecOn with
  | nil => cases pair
  | append_singleton front placed ih =>
    obtain ⟨c, last⟩ := placed
    obtain ⟨before, -, order⟩ := List.pairwise_append.mp ordered
    rw [Matching.ofCode_concat] at pair
    by_cases closes : c = closeBrace
    · rw [closes, Matching.mem_pairs_read_closer] at pair
      rcases pair with ⟨innermost, rfl⟩ | old
      · exact order _ (Matching.mem_opened braces_apart (List.mem_of_head? innermost)) (c, last) (by simp)
      · exact ih before old
    by_cases opens : c = openBrace
    · rw [opens, Matching.read_opener braces_apart] at pair
      exact ih before pair
    · rw [Matching.read_other opens closes] at pair
      exact ih before pair

theorem ends_iff : Ends window semicolon ↔ (';', semicolon) ∈ placed window ∧ Stops (placed window) 0 semicolon := by
  rw [Ends, mem_placed]
  refine and_congr_right fun _ => ⟨fun closed => ⟨fun closing member behind => ?_, nofun⟩, fun stops closing seen behind => ?_⟩
  · obtain ⟨opening, pair, after, -⟩ := closed closing (mem_placed.mp member) behind
    exact ⟨opening, pair, after⟩
  · obtain ⟨opening, pair, after⟩ := stops.matched closing (mem_placed.mpr seen) behind
    exact ⟨opening, pair, after, before_of_mem_pairs (pairwise_placed window) pair⟩

theorem unmatchedBrace_eq_some_iff :
    unmatchedBrace window = some place ↔
      (braces window).opened.head? = some place ∧ ∀ semicolon, Before place semicolon → ¬ Ends window semicolon := by
  rw [unmatchedBrace_eq, seekBack_eq_some_iff (pairwise_placed window), Lands, ← List.head?_eq_getElem?]
  refine and_congr_right fun _ => forall_congr' fun semicolon => ?_
  rw [ends_iff]
  tauto

/-- The scan for the enclosing brace finds the innermost brace that a matching from left to right leaves open, unless
a semicolon behind it ends the search; otherwise it finds none. What it finds is a brace of its line, outside of
literals and comments. -/
theorem unmatchedBrace_agrees_with_matching (window : List Text) :
    (∀ place, unmatchedBrace window = some place ↔
      (braces window).opened.head? = some place ∧ ∀ semicolon, Before place semicolon → ¬ Ends window semicolon) ∧
    (unmatchedBrace window = none ↔ ∀ place, (braces window).opened.head? = some place →
      ∃ semicolon, Before place semicolon ∧ Ends window semicolon) ∧
    ∀ place, unmatchedBrace window = some place → ∃ row, window[place.1]? = some row ∧
      row[place.2]? = some openBrace ∧ ¬ InLiteral row place.2 ∧ ¬ InComment row place.2 := by
  refine ⟨fun place => unmatchedBrace_eq_some_iff, ?_, fun place found => ?_⟩
  · simp only [Option.eq_none_iff_forall_ne_some, ne_eq, unmatchedBrace_eq_some_iff, not_and, not_forall, not_not,
      exists_prop]
  · have innermost := (unmatchedBrace_eq_some_iff.mp found).1
    obtain ⟨row, there, seen⟩ := mem_placed.mp (Matching.mem_opened braces_apart (List.mem_of_head? innermost))
    exact ⟨row, there, of_getElem?_codeOf seen (by decide)⟩

/-- An object with a brace in a string, one in a comment, and a statement in the body of a function. -/
def objectLines (last : Text) : List Text :=
  ["const a = \x7b", "  s: '\x7d', // \x7d", "  f() \x7b x; \x7d,", last]

/-- The enclosing brace is found; behind a statement of its own it is not. -/
theorem unmatchedBrace_agrees_with_matching_object :
    unmatchedBrace (objectLines "  ") = some (0, 10) ∧ (braces (objectLines "  ")).opened = [(0, 10)] ∧
      (∀ semicolon, Before (0, 10) semicolon → ¬ Ends (objectLines "  ") semicolon) ∧
      unmatchedBrace (objectLines "g();") = none ∧
      ∃ semicolon, Before (0, 10) semicolon ∧ Ends (objectLines "g();") semicolon := by
  have found : unmatchedBrace (objectLines "  ") = some (0, 10) := by decide +kernel
  have none : unmatchedBrace (objectLines "g();") = none := by decide +kernel
  have opened : (braces (objectLines "  ")).opened = [(0, 10)] := by decide +kernel
  have still : (braces (objectLines "g();")).opened.head? = some (0, 10) := by decide +kernel
  exact ⟨found, opened, (((unmatchedBrace_agrees_with_matching _).1 (0, 10)).mp found).2, none,
    (unmatchedBrace_agrees_with_matching _).2.1.mp none (0, 10) still⟩

end InlineCompletion.Scan
