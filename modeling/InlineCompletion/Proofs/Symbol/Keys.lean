import InlineCompletion.Proofs.Text.Names
import InlineCompletion.Proofs.Text.Occurrences
import InlineCompletion.Symbol.Property

/-!
What counts as a key of an object: a name before a single colon, perhaps in quotes, at the start of a text or
behind a brace or comma. Keys stand apart, so that reading a text from left to right finds every one of them.
-/

namespace InlineCompletion.Property

open Pattern Text

/-! How a key is written. -/

/-- The characters that a key may follow. -/
def isMark (c : Char) : Bool :=
  c = openBrace || c = ','

/-- A name with a colon, white space around it and perhaps quotes. -/
structure Label where
  gap : Text
  opening : Text
  name : Text
  closing : Text
  space : Text
  blank : ∀ c ∈ gap ++ space, isBlank c = true
  quoted : ∀ quote ∈ [opening, closing], quote = [] ∨ quote = [doubleQuote] ∨ quote = [singleQuote]
  named : name.IsIdentifier

def Label.text (label : Label) : Text :=
  label.gap ++ (label.opening ++ (label.name ++ (label.closing ++ (label.space ++ [':']))))

/-- A label behind a brace, a comma or nothing. -/
structure Spelling where
  mark : Text
  label : Label
  marked : mark = [] ∨ ∃ c, mark = [c] ∧ isMark c = true

def Spelling.text (spelling : Spelling) : Text :=
  spelling.mark ++ spelling.label.text

variable {before after rest : Text} {cursor last : Cursor} {label : Label} {spelling : Spelling}

theorem isMark_eq_false {c : Char} (given : isBlank c = true ∨ c = doubleQuote ∨ c = singleQuote ∨
    isNameChar c = true ∨ c = ':') : isMark c = false := by
  refine Bool.eq_false_iff.mpr fun marks => ?_
  have marks : c = openBrace ∨ c = ',' := by simpa [isMark] using marks
  rcases marks with rfl | rfl <;> revert given <;> decide

theorem Label.not_mark (label : Label) : ∀ c ∈ label.text, isMark c = false := by
  intro c member
  apply isMark_eq_false
  have blank := label.blank c
  have named := label.named.all c
  have quotes := label.quoted
  simp only [Label.text, List.mem_append, List.mem_singleton] at member blank
  simp only [List.forall_mem_cons] at quotes
  rcases member with gap | opening | name | closing | space | colon
  · exact .inl (blank (.inl gap))
  · rcases quotes.1 with none | quote | quote <;> simp_all
  · exact .inr (.inr (.inr (.inl (named name))))
  · rcases quotes.2.1 with none | quote | quote <;> simp_all
  · exact .inl (blank (.inr space))
  · exact .inr (.inr (.inr (.inr colon)))

theorem Label.text_ne_nil (label : Label) : label.text ≠ [] := by
  simp [Label.text]

/-! The pattern. -/

/-- What follows the mark of a key. -/
def labelPattern : Pattern (Cursor × Cursor) := do
  blanks
  quoteMark
  let word ← captured name
  quoteMark
  blanks
  literal ":"
  notAhead (literal ":")
  pure word

theorem key_eq : key = (orElse atStart (char isMark) >>= fun _ => labelPattern) := rfl

theorem reads_quoteMark {found : Unit × Cursor} (member : found ∈ quoteMark cursor) :
    ∃ quote : Text, (quote = [] ∨ quote = [doubleQuote] ∨ quote = [singleQuote]) ∧ cursor.Reads quote found.2 := by
  rcases mem_of_mem_optional member with there | same
  · obtain ⟨c, given, reads⟩ := reads_char there
    have given : c = doubleQuote ∨ c = singleQuote := by simpa using given
    exact ⟨[c], by simpa using given, reads⟩
  · exact ⟨[], .inl rfl, by rw [same]; rfl⟩

theorem reads_labelPattern {found : (Cursor × Cursor) × Cursor} (member : found ∈ labelPattern cursor) :
    ∃ label : Label, cursor.Reads label.text found.2 ∧ ∀ c ∈ found.2.after.head?, c ≠ ':' := by
  obtain ⟨first, spaced, member⟩ := (mem_bind _ _ _ _).mp member
  obtain ⟨second, opens, member⟩ := (mem_bind _ _ _ _).mp member
  obtain ⟨third, word, member⟩ := (mem_bind _ _ _ _).mp member
  obtain ⟨fourth, closes, member⟩ := (mem_bind _ _ _ _).mp member
  obtain ⟨fifth, spaced', member⟩ := (mem_bind _ _ _ _).mp member
  obtain ⟨sixth, colon, member⟩ := (mem_bind _ _ _ _).mp member
  obtain ⟨seventh, single, finish⟩ := (mem_bind _ _ _ _).mp member
  obtain ⟨gap, blank, reads₁⟩ := reads_many spaced
  obtain ⟨opening, quote, reads₂⟩ := reads_quoteMark opens
  obtain ⟨name, named, reads₃⟩ := reads_name (mem_of_mem_captured word).1
  obtain ⟨closing, quote', reads₄⟩ := reads_quoteMark closes
  obtain ⟨space, blank', reads₅⟩ := reads_many spaced'
  have reads₆ := reads_literal colon
  obtain ⟨lonely, same⟩ := holds_of_mem_place single
  have last : found.2 = sixth.2 := by rw [List.mem_singleton.mp finish, same]
  let label : Label :=
    { gap, opening, name, closing, space, named
      blank := by simpa [or_imp, forall_and] using And.intro blank blank'
      quoted := by simpa using And.intro quote quote' }
  refine ⟨label, ?_, ?_⟩
  · rw [last]
    exact reads₁.trans (reads₂.trans (reads₃.trans (reads₄.trans (reads₅.trans reads₆))))
  · rw [last]
    intro c member colon
    subst colon
    obtain ⟨more, after⟩ := List.head?_eq_some_iff.mp member
    simp [literal, literalBy, after] at lonely

theorem prefers_quoteMark {quote : Text} (quoted : quote = [] ∨ quote = [doubleQuote] ∨ quote = [singleQuote])
    (stops : ∀ c ∈ after.head?, c ≠ doubleQuote ∧ c ≠ singleQuote) (before : Text) :
    Prefers quoteMark ⟨before, quote ++ after⟩ () ⟨quote.reverse ++ before, after⟩ := by
  rcases quoted with rfl | rfl | rfl
  · cases after with
    | nil => rfl
    | cons c more => exact prefers_optional (char_eq_nil (by simpa using stops c rfl) before more)
  · exact (prefers_char (by decide) before after).orElse
  · exact (prefers_char (by decide) before after).orElse

/-- The first character of two texts in a row is one of the first text, or the first one of the other. -/
theorem forall_head?_append {kind : Char → Prop} {front : Text} (all : ∀ c ∈ front, kind c)
    (first : ∀ c ∈ after.head?, kind c) : ∀ c ∈ (front ++ after).head?, kind c := by
  cases front with
  | nil => exact first
  | cons d more => simpa using all d (List.mem_cons_self ..)

theorem of_mem_quote {quote : Text} (quoted : quote = [] ∨ quote = [doubleQuote] ∨ quote = [singleQuote]) :
    ∀ c ∈ quote, isBlank c = false ∧ isNameChar c = false := by
  rcases quoted with rfl | rfl | rfl
  · simp
  · exact List.forall_mem_singleton.mpr (by decide)
  · exact List.forall_mem_singleton.mpr (by decide)

theorem isNameStart_bare {c : Char} (starts : isNameStart c = true) : c ≠ doubleQuote ∧ c ≠ singleQuote := by
  constructor <;> (rintro rfl; cases starts)

theorem isBlank_bare {c : Char} (blank : isBlank c = true) : c ≠ doubleQuote ∧ c ≠ singleQuote := by
  constructor <;> (rintro rfl; cases blank)

theorem isBlank_unnamed {c : Char} (blank : isBlank c = true) : isNameChar c = false := by
  refine Bool.eq_false_iff.mpr fun named => ?_
  simp [not_isBlank_of_isNameChar named] at blank

/-- A label is read as it is written, up to its colon. -/
theorem prefers_labelPattern (label : Label) (single : ∀ c ∈ rest.head?, c ≠ ':') (before : Text) :
    ∃ word : Cursor × Cursor, word.1.between word.2 = label.name ∧
      Prefers labelPattern ⟨before, label.text ++ rest⟩ word ⟨label.text.reverse ++ before, rest⟩ := by
  obtain ⟨gap, opening, name, closing, space, blank, quoted, named⟩ := label
  simp only [List.mem_append, or_imp, forall_and] at blank
  simp only [List.forall_mem_cons] at quoted
  have starts := head?_of_isIdentifier named (closing ++ (space ++ ':' :: rest))
  have colon : ∀ kind : Char → Prop, kind ':' → ∀ c ∈ (':' :: rest).head?, kind c :=
    fun kind given c member => Option.mem_some.mp member ▸ given
  have first (before : Text) := prefers_many blank.1
    (forall_head?_append (fun c member => (of_mem_quote quoted.1 c member).1) fun c member =>
      not_isBlank_of_isNameChar (isNameChar_of_isNameStart (starts c member))) before
  have opens (before : Text) := prefers_quoteMark quoted.1 (fun c member => isNameStart_bare (starts c member)) before
  have word (before : Text) := prefers_name named
    (forall_head?_append (fun c member => (of_mem_quote quoted.2.1 c member).2) <|
      forall_head?_append (fun c member => isBlank_unnamed (blank.2 c member)) (colon _ (by decide))) before
  have closes (before : Text) := prefers_quoteMark quoted.2.1
    (forall_head?_append (fun c member => isBlank_bare (blank.2 c member)) (colon _ (by decide))) before
  have second (before : Text) := prefers_many blank.2 (colon _ (by decide)) before
  have mark (before : Text) := prefers_literal [':'] before rest
  have lonely (before : Text) : Prefers (notAhead (literal ":")) ⟨before, rest⟩ () ⟨before, rest⟩ := by
    refine prefers_place ?_
    cases rest with
    | nil => rfl
    | cons c more => simp [literal, literalBy, (single c rfl).symm]
  have whole : Prefers labelPattern ⟨before, gap ++ (opening ++ (name ++ (closing ++ (space ++ ':' :: rest))))⟩ _ _ :=
    (first before).bind <| (opens _).bind <| (word _).captured.bind <| (closes _).bind <| (second _).bind <|
      (mark _).bind <| (lonely _).bind <| prefers_pure _ _
  refine ⟨(⟨opening.reverse ++ (gap.reverse ++ before), name ++ (closing ++ (space ++ ':' :: rest))⟩,
    ⟨name.reverse ++ (opening.reverse ++ (gap.reverse ++ before)), closing ++ (space ++ ':' :: rest)⟩),
    Cursor.Reads.between_eq rfl, ?_⟩
  simpa [Label.text] using whole

/-- No label begins with what a key may follow. -/
theorem labelPattern_eq_nil {c : Char} (marks : isMark c = true) (before rest : Text) :
    labelPattern ⟨before, c :: rest⟩ = [] := by
  refine List.eq_nil_iff_forall_not_mem.mpr fun found member => ?_
  obtain ⟨label, reads, -⟩ := reads_labelPattern member
  have reads : c :: rest = label.text ++ found.2.after := reads
  have inside : c ∈ label.text := by
    obtain ⟨d, more, text⟩ := List.exists_cons_of_ne_nil label.text_ne_nil
    rw [text, List.cons_append] at reads
    cases reads
    simp [text]
  simp [label.not_mark c inside] at marks

/-- A key stands at a place: it is spelled there, only the start of the text lacks a mark, and no other colon
follows. -/
structure Spelling.StandsAt (spelling : Spelling) (before after rest : Text) : Prop where
  spelled : after = spelling.text ++ rest
  placed : spelling.mark = [] → before = []
  single : ∀ c ∈ rest.head?, c ≠ ':'

theorem Spelling.StandsAt.matchAt (stands : spelling.StandsAt before after rest) :
    ∃ found, matchAt key ⟨before, after⟩ = some found ∧
      found.value.1.between found.value.2 = spelling.label.name ∧
      found.last = ⟨spelling.text.reverse ++ before, rest⟩ := by
  obtain ⟨mark, label, marked⟩ := spelling
  obtain ⟨rfl, placed, single⟩ := stands
  rcases marked with rfl | ⟨c, rfl, marks⟩
  · obtain rfl := placed rfl
    obtain ⟨word, same, prefers⟩ := prefers_labelPattern label single []
    have start : Prefers atStart ⟨[], label.text ++ rest⟩ () ⟨[], label.text ++ rest⟩ := prefers_place rfl
    exact ⟨_, (start.orElse.bind prefers).matchAt, same, rfl⟩
  · obtain ⟨word, same, prefers⟩ := prefers_labelPattern label single (c :: before)
    -- At the start of the text the pattern also tries the label without the mark, in vain.
    have unmarked : (atStart >>= fun _ => labelPattern) ⟨before, c :: (label.text ++ rest)⟩ = [] := by
      refine List.eq_nil_iff_forall_not_mem.mpr fun found member => ?_
      obtain ⟨first, start, member⟩ := (mem_bind _ _ _ _).mp member
      rw [(holds_of_mem_place start).2, labelPattern_eq_nil marks] at member
      cases member
    have both : Prefers key ⟨before, c :: (label.text ++ rest)⟩ word ⟨label.text.reverse ++ c :: before, rest⟩ :=
      .orElse_bind unmarked ((prefers_char marks before _).bind prefers)
    exact ⟨_, both.matchAt, same, by simp [Spelling.text]⟩

theorem standsAt_of_matchAt {found : Match (Cursor × Cursor)} (here : matchAt key ⟨before, after⟩ = some found) :
    ∃ spelling rest, Spelling.StandsAt spelling before after rest ∧
      found.value.1.between found.value.2 = spelling.label.name ∧
      found.last = ⟨spelling.text.reverse ++ before, rest⟩ := by
  obtain ⟨spelling, rest, stands⟩ : ∃ spelling rest, Spelling.StandsAt spelling before after rest := by
    obtain ⟨pair, first, -⟩ := Option.map_eq_some_iff.mp here
    have member := List.mem_of_head? first
    rw [key_eq] at member
    obtain ⟨⟨_, middle⟩, starts, member⟩ := (mem_bind _ _ _ _).mp member
    obtain ⟨label, reads, single⟩ := reads_labelPattern member
    rcases List.mem_append.mp starts with start | mark
    · obtain ⟨none, same⟩ := holds_of_mem_place start
      have same : middle = ⟨before, after⟩ := same
      subst same
      exact ⟨⟨[], label, .inl rfl⟩, pair.2.after, reads, fun _ => List.isEmpty_iff.mp none, single⟩
    · obtain ⟨c, marks, reads'⟩ := reads_char mark
      exact ⟨⟨[c], label, .inr ⟨c, rfl, marks⟩⟩, pair.2.after, (reads'.trans reads :), nofun, single⟩
  obtain ⟨found', there, same, last⟩ := stands.matchAt
  cases here.symm.trans there
  exact ⟨spelling, rest, stands, same, last⟩

/-- Inside a key no other one begins, since what a key follows stands only at the start of it. -/
theorem apart_key : Apart key := by
  intro before text found here
  obtain ⟨spelling, rest, stands, -, last⟩ := standsAt_of_matchAt here
  obtain ⟨c, read, split, inside⟩ : ∃ c read, spelling.text = c :: read ∧ read ⊆ spelling.label.text := by
    rcases spelling.marked with none | ⟨c, mark, -⟩
    · obtain ⟨c, read, text⟩ := List.exists_cons_of_ne_nil spelling.label.text_ne_nil
      exact ⟨c, read, by simp [Spelling.text, none, text], by simp [text]⟩
    · exact ⟨c, spelling.label.text, by simp [Spelling.text, mark], List.Subset.refl _⟩
  refine ⟨c, read, rest, by simp [stands.spelled, split], by simp [last, split], fun skipped more parts some => ?_⟩
  refine Option.eq_none_iff_forall_ne_some.mpr fun other there => ?_
  obtain ⟨spelling', rest', stands', -, -⟩ := standsAt_of_matchAt there
  rcases spelling'.marked with none | ⟨d, mark, marks⟩
  · simpa using stands'.placed none
  · obtain ⟨e, others, rfl⟩ := List.exists_cons_of_ne_nil some
    have same : e = d := by
      have spelled := stands'.spelled
      simp only [Spelling.text, mark, List.cons_append] at spelled
      exact (List.cons.inj spelled).1
    have label := spelling.label.not_mark e (inside (by simp [parts]))
    simp [same, marks] at label

/-! The keys of a text. -/

/-- A name, the column where its key begins with what it follows, and the column of its colon. -/
structure Key where
  name : Text
  start : Nat
  colon : Nat
  deriving DecidableEq

def keysIn (text : Text) : List Key :=
  (findAll key text).map fun found =>
    ⟨found.value.1.between found.value.2, found.first.column, found.last.column - 1⟩

/-- The key is written in the text. -/
def Key.In (key : Key) (text : Text) : Prop :=
  ∃ spelling front after rest, text = front ++ after ∧ Spelling.StandsAt spelling front.reverse after rest ∧
    key = ⟨spelling.label.name, front.length, front.length + spelling.text.length - 1⟩

theorem captures_key (text : Text) : Variable.captures key text = (keysIn text).map Key.name := by
  simp [Variable.captures, keysIn]

/-- The keys of a text are all those that are written in it. -/
theorem mem_keysIn {k : Key} {text : Text} : k ∈ keysIn text ↔ k.In text := by
  simp only [keysIn, findAll_eq_occurrences apart_key, List.mem_map, mem_occurrences, List.append_nil]
  constructor
  · rintro ⟨found, ⟨front, after, split, here⟩, rfl⟩
    obtain ⟨spelling, rest, stands, name, last⟩ := standsAt_of_matchAt here
    refine ⟨spelling, front, after, rest, split, stands, ?_⟩
    simp [name, last, first_of_matchAt here, Cursor.column, Nat.add_comm]
  · rintro ⟨spelling, front, after, rest, split, stands, rfl⟩
    obtain ⟨found, here, name, last⟩ := stands.matchAt
    refine ⟨found, ⟨front, after, split, here⟩, ?_⟩
    simp [name, last, first_of_matchAt here, Cursor.column, Nat.add_comm]

/-- The keys of a text come from left to right. -/
theorem pairwise_keysIn (text : Text) : (keysIn text).Pairwise fun earlier later => earlier.start < later.start := by
  rw [keysIn, findAll_eq_occurrences apart_key, List.pairwise_map]
  exact pairwise_occurrences key [] text

end InlineCompletion.Property
