import InlineCompletion.Scan.Literal
import InlineCompletion.Proofs.Text.Trims
import Mathlib.Data.List.Induction

/-!
The scan for literals as a machine that reads a text character by character. The literal that is open at the end
of a text and the marks of its characters are read off where the machine stands, so that texts in a row are
scanned one after the other, and what is taken off the end of a text without a quote changes no literal.
-/

namespace InlineCompletion.Scan

open Text

/-- Where a scan stands: in the literal of a quote or outside of all, perhaps behind an escaping backslash. -/
structure Standing where
  quote : Option Char
  escaped : Bool
  deriving DecidableEq

/-- How many backslashes there are at the end of a text. -/
def backslashesAtEnd (text : Text) : Nat :=
  (text.reverse.takeWhile (· = backslash)).length

namespace Standing

def outside : Standing := ⟨none, false⟩

def read (standing : Standing) (c : Char) : Standing :=
  if standing.escaped then ⟨standing.quote, false⟩
  else if c = backslash then ⟨standing.quote, true⟩
  else
    match standing.quote with
    | some quote => ⟨if c = quote then none else some quote, false⟩
    | none => ⟨if isQuote c then some c else none, false⟩

def through (standing : Standing) (text : Text) : Standing :=
  text.foldl read standing

/-- Whether the next character belongs to a literal, as one of its quotes or between them. -/
def marks (standing : Standing) (c : Char) : Bool :=
  standing.quote.isSome || (standing.read c).quote.isSome

/-- The text read from here on, with a space for every character of a literal. -/
def code (standing : Standing) : Text → Text
  | [] => []
  | c :: rest => (if standing.marks c then ' ' else c) :: (standing.read c).code rest

variable {standing : Standing} {front rest text : Text} {c : Char}

@[simp] theorem through_nil (standing : Standing) : standing.through [] = standing := rfl

@[simp] theorem through_cons (standing : Standing) (c : Char) (rest : Text) :
    standing.through (c :: rest) = (standing.read c).through rest := rfl

@[simp] theorem through_append (standing : Standing) (front rest : Text) :
    standing.through (front ++ rest) = (standing.through front).through rest :=
  List.foldl_append

@[simp] theorem code_append (standing : Standing) (front rest : Text) :
    standing.code (front ++ rest) = standing.code front ++ (standing.through front).code rest := by
  induction front generalizing standing with
  | nil => rfl
  | cons c more ih => simp [code, ih]

/-! What is no quote opens and closes nothing. -/

/-- Only a quote is the quote of a literal. -/
theorem isQuote_read (within : ∀ quote ∈ standing.quote, isQuote quote = true) (c : Char) :
    ∀ quote ∈ (standing.read c).quote, isQuote quote = true := by
  unfold read
  split
  · exact within
  · split
    · exact within
    · cases same : standing.quote with
      | none =>
        intro quote member
        by_cases given : isQuote c = true
        · simp only [given, if_true, Option.mem_some_iff] at member
          exact member ▸ given
        · simp [given] at member
      | some other =>
        intro quote member
        by_cases closes : c = other
        · simp [closes] at member
        · simp only [closes, if_false] at member
          exact within quote (same ▸ member)

theorem isQuote_through (within : ∀ quote ∈ standing.quote, isQuote quote = true) (text : Text) :
    ∀ quote ∈ (standing.through text).quote, isQuote quote = true := by
  induction text generalizing standing with
  | nil => exact within
  | cons c rest ih => exact ih (isQuote_read within c)

theorem quote_read (plain : isQuote c = false) (within : ∀ quote ∈ standing.quote, isQuote quote = true) :
    (standing.read c).quote = standing.quote := by
  unfold read
  split
  · rfl
  · split
    · rfl
    · cases same : standing.quote with
      | none => simp [plain]
      | some quote =>
        have other : c ≠ quote := by
          rintro rfl
          simp [within c same] at plain
        simp [other]

theorem quote_through (plain : ∀ c ∈ text, isQuote c = false)
    (within : ∀ quote ∈ standing.quote, isQuote quote = true) : (standing.through text).quote = standing.quote := by
  induction text generalizing standing with
  | nil => rfl
  | cons c rest ih =>
    have here := quote_read (plain c (List.mem_cons_self ..)) within
    rw [through_cons, ih (fun d member => plain d (List.mem_cons_of_mem c member)) (isQuote_read within c), here]

theorem code_of_plain (plain : ∀ c ∈ text, isQuote c = false) (open' : standing.quote = none) :
    standing.code text = text := by
  induction text generalizing standing with
  | nil => rfl
  | cons c rest ih =>
    have next : (standing.read c).quote = none :=
      (quote_read (plain c (List.mem_cons_self ..)) (by simp [open'])).trans open'
    rw [code, ih (fun d member => plain d (List.mem_cons_of_mem c member)) next]
    simp [marks, open', next]

/-- White space does not move a scan that is not behind a backslash. -/
theorem read_of_plain (plain : isQuote c = false) (solid : c ≠ backslash) : outside.read c = outside := by
  simp [read, outside, plain, solid]

theorem through_of_plain (plain : ∀ c ∈ text, isQuote c = false ∧ c ≠ backslash) :
    outside.through text = outside := by
  induction text with
  | nil => rfl
  | cons c rest ih =>
    obtain ⟨quote, solid⟩ := plain c (List.mem_cons_self ..)
    rw [through_cons, read_of_plain quote solid]
    exact ih fun d member => plain d (List.mem_cons_of_mem c member)

/-! What a step can have been. -/

/-- A literal goes on, or the character opens it. -/
theorem of_quote_read_eq_some {quote : Char} (opened : (standing.read c).quote = some quote) :
    standing.quote = some quote ∨ standing = outside ∧ c = quote := by
  obtain ⟨before, escaped⟩ := standing
  cases escaped with
  | true => exact .inl opened
  | false =>
    by_cases solid : c = backslash
    · exact .inl (by simpa [read, solid] using opened)
    · cases before with
      | none =>
        by_cases opens : isQuote c = true
        · exact .inr ⟨rfl, by simpa [read, solid, opens] using opened⟩
        · simp [read, solid, opens] at opened
      | some other =>
        by_cases closes : c = other
        · simp [read, closes, closes ▸ solid] at opened
        · exact .inl (by simpa [read, solid, closes] using opened)

/-- A quote that leaves no literal open is escaped outside of all literals, or it closes its own. -/
theorem of_quote_read_eq_none (given : isQuote c = true) (closed : (standing.read c).quote = none) :
    standing = ⟨none, true⟩ ∨ standing = ⟨some c, false⟩ := by
  obtain ⟨before, escaped⟩ := standing
  have solid : c ≠ backslash := by
    rintro rfl
    cases given
  cases escaped with
  | true =>
    have closed : before = none := closed
    exact .inl (by rw [closed])
  | false =>
    cases before with
    | none => simp [read, solid, given] at closed
    | some other =>
      by_cases closes : c = other
      · exact .inr (by rw [closes])
      · simp [read, solid, closes] at closed

/-! Backslashes. -/

theorem escaped_read (standing : Standing) (c : Char) :
    (standing.read c).escaped = (!standing.escaped && c = backslash) := by
  unfold read
  split
  · next given => simp [given]
  · next given =>
    split
    · next same => simp [given, same]
    · next other => cases standing.quote <;> simp [other]

/-- Every other one of the backslashes at the end of a text escapes what follows. -/
theorem escaped_through (text : Text) :
    (outside.through text).escaped = true ↔ backslashesAtEnd text % 2 = 1 := by
  induction text using List.reverseRecOn with
  | nil => simp [outside, backslashesAtEnd]
  | append_singleton front c ih =>
    rw [through_append, through_cons, through_nil, escaped_read]
    by_cases same : c = backslash
    · have more : backslashesAtEnd (front ++ [c]) = backslashesAtEnd front + 1 := by
        simp [backslashesAtEnd, same]
      have given : (outside.through front).escaped = false ↔ backslashesAtEnd front % 2 ≠ 1 := by
        rw [← Bool.not_eq_true, ih]
      rw [more, decide_eq_true same, Bool.and_true, Bool.not_eq_true', given]
      omega
    · have none : backslashesAtEnd (front ++ [c]) = 0 := by simp [backslashesAtEnd, same]
      simp [none, same]

end Standing

open Standing

variable {text front rest : Text} {quote : Char}

theorem openQuote_go_cons (standing : Standing) (c : Char) (rest : Text) :
    openQuote.go standing.quote standing.escaped (c :: rest) =
      openQuote.go (standing.read c).quote (standing.read c).escaped rest := by
  obtain ⟨quote, escaped⟩ := standing
  cases escaped with
  | true => cases quote <;> simp [openQuote.go, Standing.read]
  | false => by_cases solid : c = backslash <;> cases quote <;> simp [openQuote.go, Standing.read, solid]

theorem openQuote_go_eq (standing : Standing) (text : Text) :
    openQuote.go standing.quote standing.escaped text = (standing.through text).quote := by
  induction text generalizing standing with
  | nil => rfl
  | cons c rest ih => rw [openQuote_go_cons, ih, through_cons]

/-- The literal that is open at the end of a text is the one that a scan ends in. -/
theorem openQuote_eq (text : Text) : openQuote text = (outside.through text).quote :=
  openQuote_go_eq outside text

theorem literalMask_go_cons (standing : Standing) (c : Char) (rest : Text) :
    literalMask.go standing.quote standing.escaped (c :: rest) =
      standing.marks c :: literalMask.go (standing.read c).quote (standing.read c).escaped rest := by
  obtain ⟨quote, escaped⟩ := standing
  cases escaped with
  | true => cases quote <;> simp [literalMask.go, marks, Standing.read]
  | false =>
    by_cases solid : c = backslash
    · cases quote <;> simp [literalMask.go, marks, Standing.read, solid]
    · cases quote with
      | none => by_cases opens : isQuote c = true <;> simp [literalMask.go, marks, Standing.read, solid, opens]
      | some quote => by_cases closes : c = quote <;> simp_all [literalMask.go, marks, Standing.read]

theorem blankLiterals_eq (text : Text) : blankLiterals text = outside.code text := by
  have general (standing : Standing) : List.zipWith (fun c masked => if masked then ' ' else c) text
      (literalMask.go standing.quote standing.escaped text) = standing.code text := by
    induction text generalizing standing with
    | nil => cases standing.quote <;> rfl
    | cons c rest ih => rw [literalMask_go_cons, List.zipWith_cons_cons, ih, code]
  exact general outside

theorem not_isBlank_of_isQuote {c : Char} (given : isQuote c = true) : isBlank c = false := by
  simp only [isQuote, Bool.or_eq_true, decide_eq_true_eq, or_assoc] at given
  rcases given with rfl | rfl | rfl <;> rfl

theorem isQuote_of_openQuote (opened : openQuote text = some quote) : isQuote quote = true :=
  have none : ∀ quote ∈ outside.quote, isQuote quote = true := nofun
  isQuote_through none text quote (openQuote_eq text ▸ opened)

/-- What is no quote may stand at the end of a text or not. -/
theorem openQuote_append_of_plain (plain : ∀ c ∈ rest, isQuote c = false) :
    openQuote (front ++ rest) = openQuote front := by
  rw [openQuote_eq, openQuote_eq, through_append]
  exact quote_through plain (isQuote_through (by simp [outside]) front)

theorem openQuote_append_of_lead (plain : ∀ c ∈ front, isQuote c = false ∧ c ≠ backslash) :
    openQuote (front ++ text) = openQuote text := by
  rw [openQuote_eq, openQuote_eq, through_append, through_of_plain plain]

/-- A quote behind a text that leaves its literal open closes that, unless a backslash escapes it. -/
theorem openQuote_concat_quote (opened : openQuote text = some quote) :
    openQuote (text ++ [quote]) = if backslashesAtEnd text % 2 = 1 then some quote else none := by
  have given := isQuote_of_openQuote opened
  have solid : quote ≠ backslash := by
    rintro rfl
    cases given
  rw [openQuote_eq] at opened
  rw [openQuote_eq, through_append, through_cons, through_nil]
  by_cases odd : backslashesAtEnd text % 2 = 1
  · simp [Standing.read, (escaped_through text).mpr odd, odd, opened]
  · have free := mt (escaped_through text).mp odd
    simp [Standing.read, free, odd, opened, solid]

end InlineCompletion.Scan
