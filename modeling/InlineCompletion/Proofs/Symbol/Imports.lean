import InlineCompletion.Proofs.Scan.Matching
import InlineCompletion.Proofs.Symbol.Declarations
import InlineCompletion.Proofs.Text.FirstOccurrences

/-!
Which names are suggested for an import. They are used in code and do not stand in a line where an import statement
begins, nor behind a declaring word that a search reads. An import statement may go on below its first line, and a
declaring word may be the name that another one declares; a name that is suggested although the text imports or declares
it stands in one of these two places.
-/

namespace InlineCompletion

open Pattern Text

namespace Pattern

/-- An identifier that stands by itself is one of those that a search reads. -/
theorem mem_captures_name {name code : Text} (named : name.IsIdentifier) (stands : StandsIn isNameChar name code) :
    name ∈ Variable.captures (captured Pattern.name) code := by
  obtain ⟨front, rest, rfl, left, right⟩ := stands
  have preferred := (Property.prefers_name named right front.reverse).captured
  refine Variable.mem_captures_of_prefers (fun cursor found member => ?_) preferred left (Cursor.Reads.between_eq rfl)
  obtain ⟨member, -⟩ := mem_of_mem_captured member
  obtain ⟨read, named', reads⟩ := reads_name member
  exact ⟨read, by rintro rfl; exact named', named'.all, passing_name.of_reads member reads⟩

/-- The identifiers that a search reads are written in the code. -/
theorem isInfix_of_mem_captures_name {name code : Text}
    (member : name ∈ Variable.captures (captured Pattern.name) code) : name <:+: code := by
  obtain ⟨place, ends, last, rfl, preferred, rfl⟩ :=
    Variable.exists_prefers_of_mem_captures (passing_captured passing_name) member
  obtain ⟨read, rfl⟩ := Prefers.of_captured preferred
  obtain ⟨word, -, reads, -⟩ := read.of_name
  have split : place.after = word ++ last.after := reads
  rw [reads.between_eq, Cursor.text, split]
  exact ⟨_, _, List.append_assoc ..⟩

end Pattern

namespace Import

open Scan

/-- A capital, then letters, digits and underscores of ASCII. -/
def IsCapitalised : Text → Prop
  | [] => False
  | first :: more => first.isUpper = true ∧ ∀ c ∈ more, (c.isAlphanum || c = '_') = true

instance : DecidablePred IsCapitalised
  | [] => .isFalse id
  | first :: more => decidable_of_iff ((first.isUpper && more.all fun c => c.isAlphanum || c = '_') = true)
      (by simp [IsCapitalised])

variable {name code text : Text}

theorem isWordChar_of_isAlphanum_or {c : Char} (given : (c.isAlphanum || c = '_') = true) : isWordChar c = true := by
  rw [Bool.or_eq_true, decide_eq_true_eq] at given
  rcases given with plain | rfl
  · exact isWordChar_of_isAlphanum plain
  · decide

theorem isAlpha_of_isUpper {c : Char} (upper : c.isUpper = true) : c.isAlpha = true := by
  show (c.isUpper || c.isLower) = true
  rw [upper, Bool.true_or]

theorem IsCapitalised.isWordChar (capital : IsCapitalised name) : ∀ c ∈ name, isWordChar c = true := by
  cases name with
  | nil => exact capital.elim
  | cons first more =>
    intro c member
    rcases List.mem_cons.mp member with rfl | member
    · refine isWordChar_of_isAlphanum ?_
      show (c.isAlpha || c.isDigit) = true
      rw [isAlpha_of_isUpper capital.1, Bool.true_or]
    · exact isWordChar_of_isAlphanum_or (capital.2 c member)

theorem IsCapitalised.ne_nil (capital : IsCapitalised name) : name ≠ [] := by
  rintro rfl
  exact capital

theorem IsCapitalised.isIdentifier (capital : IsCapitalised name) : name.IsIdentifier := by
  cases name with
  | nil => exact capital
  | cons first more =>
    refine ⟨by simp [isNameStart, isAlpha_of_isUpper capital.1], fun c member => ?_⟩
    exact isNameChar_of_isWordChar (capital.isWordChar c (List.mem_cons_of_mem _ member))

/-- A match is a capitalised word that is no part of a longer one. -/
theorem reads_capitalised {cursor : Cursor} {found : (Cursor × Cursor) × Cursor} (member : found ∈ capitalised cursor) :
    ∃ word, IsCapitalised word ∧ cursor.Passes word found.2 ∧ found.1 = (cursor, found.2) ∧
      (∀ c ∈ cursor.before.head?, isWordChar c = false) ∧ ∀ c ∈ found.2.after.head?, isWordChar c = false := by
  obtain ⟨first, edge, member⟩ := (mem_bind _ _ _ _).mp member
  obtain ⟨second, word, member⟩ := (mem_bind _ _ _ _).mp member
  obtain ⟨third, edge', finish⟩ := (mem_bind _ _ _ _).mp member
  obtain ⟨edge, start⟩ := holds_of_mem_place edge
  obtain ⟨edge', stop⟩ := holds_of_mem_place edge'
  obtain ⟨word, value⟩ := mem_of_mem_captured word
  obtain ⟨inner, initial, run⟩ := (mem_bind _ _ _ _).mp word
  obtain ⟨c, upper, reads⟩ := reads_char initial
  obtain ⟨more, all, reads'⟩ := reads_many run
  have passing : Passing (do char Char.isUpper; many fun c => c.isAlphanum || c = '_') :=
    (passing_char _).bind fun _ => passing_many _
  have passes := passing.of_reads word (reads.trans reads')
  have capital : IsCapitalised (c :: more) := ⟨upper, all⟩
  rw [start] at passes value
  rw [stop] at finish
  obtain rfl : found = (second.1, second.2) := List.mem_singleton.mp finish
  obtain ⟨places, before', after'⟩ := second
  obtain ⟨before, after⟩ := cursor
  obtain rfl : after = c :: more ++ after' := passes.1
  obtain rfl : before' = (c :: more).reverse ++ before := passes.2
  refine ⟨c :: more, capital, passes, value, ?_, ?_⟩
  · exact (edge_front_iff capital.ne_nil capital.isWordChar ..).mp edge
  · exact (edge_behind_iff capital.ne_nil capital.isWordChar ..).mp edge'

theorem passesOnly_capitalised : PassesOnly isWordChar capitalised := by
  intro cursor found member
  obtain ⟨word, capital, passes, -⟩ := reads_capitalised member
  exact ⟨word, capital.ne_nil, capital.isWordChar, passes⟩

theorem prefers_capitalised (capital : IsCapitalised name) {front rest : Text}
    (left : ∀ c ∈ front.getLast?, isWordChar c = false) (right : ∀ c ∈ rest.head?, isWordChar c = false) :
    Prefers capitalised ⟨front.reverse, name ++ rest⟩
      (⟨front.reverse, name ++ rest⟩, ⟨name.reverse ++ front.reverse, rest⟩) ⟨name.reverse ++ front.reverse, rest⟩ := by
  have word : Prefers (do char Char.isUpper; many fun c => c.isAlphanum || c = '_') ⟨front.reverse, name ++ rest⟩ ()
      ⟨name.reverse ++ front.reverse, rest⟩ := by
    obtain ⟨first, more, rfl⟩ := List.exists_cons_of_ne_nil capital.ne_nil
    have stops : ∀ c ∈ rest.head?, (c.isAlphanum || c = '_') = false := fun c member =>
      Bool.eq_false_iff.mpr fun given =>
        Bool.false_ne_true ((right c member).symm.trans (isWordChar_of_isAlphanum_or given))
    rw [List.reverse_cons, List.append_assoc]
    have run := prefers_many capital.2 stops (first :: front.reverse)
    exact (prefers_char capital.1 front.reverse (more ++ rest)).bind run
  have start : Prefers wordEdge ⟨front.reverse, name ++ rest⟩ () ⟨front.reverse, name ++ rest⟩ :=
    prefers_place ((edge_front_iff capital.ne_nil capital.isWordChar ..).mpr (by rwa [List.head?_reverse]))
  have stop : Prefers wordEdge ⟨name.reverse ++ front.reverse, rest⟩ () ⟨name.reverse ++ front.reverse, rest⟩ :=
    prefers_place ((edge_behind_iff capital.ne_nil capital.isWordChar ..).mpr right)
  exact start.bind (word.captured.bind (stop.bind (prefers_pure _ _)))

/-- What is used as a capitalised name is one that stands by itself, and each of them is used. -/
theorem mem_capitalised_iff :
    name ∈ Variable.captures capitalised code ↔ IsCapitalised name ∧ StandsIn isWordChar name code := by
  constructor
  · intro member
    obtain ⟨place, ends, last, rfl, preferred, rfl⟩ :=
      Variable.exists_prefers_of_mem_captures passesOnly_capitalised.passing member
    obtain ⟨word, capital, passes, same, left, right⟩ := reads_capitalised (List.mem_of_head? preferred)
    obtain rfl : ends = (place, last) := same
    rw [Cursor.Reads.between_eq passes.1]
    refine ⟨capital, place.before.reverse, last.after, ?_, ?_, right⟩
    · rw [Cursor.text, passes.1]
    · rwa [List.getLast?_reverse]
  · rintro ⟨capital, front, rest, rfl, left, right⟩
    exact Variable.mem_captures_of_prefers passesOnly_capitalised (prefers_capitalised capital left right) left
      (Cursor.Reads.between_eq rfl)

/-! Names that a text imports or declares. -/

/-- Some brace or parenthesis of the first line is not closed in it, nor in the lines below. -/
def LeavesOpen (first : Text) (below : List Text) : Prop :=
  ∃ pair ∈ [(openBrace, closeBrace), ('(', ')')],
    ∃ index ∈ (Matching.ofCode pair.1 pair.2 (first ++ below.flatten).zipIdx).opened, index < first.length

instance (first : Text) (below : List Text) : Decidable (LeavesOpen first below) :=
  inferInstanceAs (Decidable (∃ pair ∈ _, ∃ index ∈ _, _))

/-- The name stands in a line where an import statement begins. -/
def ImportedAtOnce (code : List (Text × Bool)) (name : Text) : Prop :=
  ∃ line, (line, true) ∈ code ∧ StandsIn isNameChar name line

/-- The name stands in a later line of an import statement, which goes on while a bracket of its first line is open. -/
def ImportedBelow (code : List (Text × Bool)) (name : Text) : Prop :=
  ∃ above first between line below, code = above ++ (first, true) :: (between ++ line :: below) ∧
    LeavesOpen first (between.map Prod.fst) ∧ StandsIn isNameChar name line.1

def Imported (code : List (Text × Bool)) (name : Text) : Prop :=
  ImportedAtOnce code name ∨ ImportedBelow code name

def declaringWords : List Text :=
  ["class", "interface", "type", "enum", "function", "def", "const", "let", "var"]

theorem declared_eq : declared = declares declaringWords := rfl

/-- The name stands behind a declaring word. -/
def Declared (code : List (Text × Bool)) (name : Text) : Prop :=
  ∃ line ∈ code, ∃ d column, Declaration.In d declaringWords line.1 column ∧ d.name = name

/-- The name stands behind a declaring word that is itself read in the name of a declaration. -/
def DeclaredInName (code : List (Text × Bool)) (name : Text) : Prop :=
  ∃ line ∈ code, ∃ d column, Declaration.In d declaringWords line.1 column ∧ d.name = name ∧
    InName declaringWords line.1 column

/-! What is suggested. -/

theorem of_mem_candidates (member : name ∈ candidates text) :
    (∃ line, (line, false) ∈ codeLines text ∧ name ∈ Variable.captures capitalised line) ∧
      name ∉ declaredNames (codeLines text) ∧ name ∉ importedNames (codeLines text) ∧ name ∉ builtins := by
  have given := (List.take_prefix ..).subset member
  simp only [List.mem_filter, usedNames, mem_firstOccurrences, List.mem_flatMap] at given
  obtain ⟨⟨⟨line, starts⟩, ⟨inside, plain⟩, used⟩, fresh⟩ := given
  have plain : starts = false := by simpa using plain
  subst plain
  simp only [List.contains_eq_mem, List.mem_append, Bool.and_eq_true, Bool.not_eq_true', decide_eq_false_iff_not,
    not_or] at fresh
  exact ⟨⟨line, inside, used⟩, fresh.1.1.1, fresh.1.1.2, fresh.1.2⟩

theorem mem_codeLines {starts : Bool} : (code, starts) ∈ codeLines text ↔
    ∃ line ∈ Text.lines text,
      Purpose.isCommentLine line = false ∧ blankLiterals line = code ∧ isStatement line = starts := by
  simp [codeLines, and_assoc]

/-- What is suggested is not imported in the line where a statement begins. -/
theorem not_importedAtOnce (member : name ∈ candidates text) : ¬ ImportedAtOnce (codeLines text) name := by
  rintro ⟨line, inside, stands⟩
  obtain ⟨⟨_, -, used⟩, -, free, -⟩ := of_mem_candidates member
  have named := (mem_capitalised_iff.mp used).1.isIdentifier
  exact free (List.mem_flatMap.mpr ⟨(line, true), by simpa using inside, mem_captures_name named stands⟩)

/-- Where it is declared, the word in front of it is read in the name of another declaration. -/
theorem inName_of_mem_candidates (member : name ∈ candidates text) {line : Text × Bool} (inside : line ∈ codeLines text)
    {d : Declaration} {column : Nat} (here : d.In declaringWords line.1 column) (same : d.name = name) :
    InName declaringWords line.1 column := by
  obtain ⟨line, starts⟩ := line
  cases starts with
  | true =>
    obtain ⟨place, rest, whole, -, here⟩ := here
    obtain rfl : place.text = line := whole
    exact absurd ⟨_, inside, same ▸ here.standsIn⟩ (not_importedAtOnce member)
  | false =>
    obtain ⟨-, free, -, -⟩ := of_mem_candidates member
    refine (here.mem_captures (by decide)).resolve_left fun read => free ?_
    rw [← declared_eq] at read
    exact List.mem_flatMap.mpr ⟨(line, false), by simpa using inside, same ▸ read⟩

/-- What is suggested unless ten names are. -/
theorem mem_candidates_of_fresh (few : (candidates text).length < maxCandidates) (capital : IsCapitalised name)
    (mixed : isAllCapitals name = false) (foreign : name ∉ builtins) {line : Text}
    (inside : (line, false) ∈ codeLines text) (stands : StandsIn isWordChar name line)
    (undeclared : ¬ Declared (codeLines text) name)
    (unimported : ∀ line, (line, true) ∈ codeLines text → ¬ name <:+: line) : name ∈ candidates text := by
  have used : name ∈ usedNames (codeLines text) := by
    refine mem_firstOccurrences.mpr (List.mem_flatMap.mpr ⟨(line, false), by simpa using inside, ?_⟩)
    exact mem_capitalised_iff.mpr ⟨capital, stands⟩
  have new : name ∉ declaredNames (codeLines text) := by
    intro member
    obtain ⟨line, given, read⟩ := List.mem_flatMap.mp member
    rw [declared_eq] at read
    obtain ⟨d, column, here, same⟩ := exists_of_mem_captures (by decide) read
    exact undeclared ⟨line, (List.mem_filter.mp given).1, d, column, here, same⟩
  have free : name ∉ importedNames (codeLines text) := by
    intro member
    obtain ⟨⟨line, starts⟩, given, read⟩ := List.mem_flatMap.mp member
    obtain ⟨given, begins⟩ := List.mem_filter.mp given
    obtain rfl : starts = true := begins
    exact unimported line given (isInfix_of_mem_captures_name read)
  rw [candidates, List.length_take] at few
  rw [candidates, List.take_of_length_le (by omega)]
  simp [used, new, free, foreign, mixed]

/-- At most ten different names are suggested. Each is capitalised, no built-in one, and stands as a word outside of
literals in a line that is no comment. If the text imports it, then below the first line of a statement, and if the text
declares it, then behind a word that is itself in the name of a declaration. -/
theorem candidates_fresh_iff (text : Text) :
    let code := codeLines text
    let suggested := candidates text
    suggested.length ≤ 10 ∧ suggested.Nodup ∧
      (∀ name ∈ suggested, IsCapitalised name ∧ name ∉ builtins ∧ ∃ line ∈ Text.lines text,
        Purpose.isCommentLine line = false ∧ ∃ column, Seen isWordChar line column name) ∧
      (∀ name ∈ suggested, Imported code name ↔ ImportedBelow code name) ∧
      ∀ name ∈ suggested, Declared code name ↔ DeclaredInName code name := by
  intro code suggested
  have imported (name : Text) (member : name ∈ suggested) : Imported code name ↔ ImportedBelow code name :=
    or_iff_right (not_importedAtOnce member)
  have declared (name : Text) (member : name ∈ suggested) : Declared code name ↔ DeclaredInName code name := by
    constructor
    · rintro ⟨line, inside, d, column, here, same⟩
      exact ⟨line, inside, d, column, here, same, inName_of_mem_candidates member inside here same⟩
    · rintro ⟨line, inside, d, column, here, same, -⟩
      exact ⟨line, inside, d, column, here, same⟩
  refine ⟨List.length_take_le .., ?_, fun name member => ?_, imported, declared⟩
  · exact (List.take_sublist ..).nodup ((nodup_firstOccurrences _).filter _)
  · obtain ⟨⟨shown, inside, used⟩, -, -, free⟩ := of_mem_candidates member
    obtain ⟨line, there, plain, rfl, -⟩ := mem_codeLines.mp inside
    obtain ⟨capital, stands⟩ := mem_capitalised_iff.mp used
    refine ⟨capital, free, line, there, plain, exists_seen stands ?_⟩
    rintro c member rfl
    exact absurd (capital.isWordChar _ member) (by decide)

/-- An import of several lines, and an enumeration that is declared with two words. -/
def longImport : Text :=
  "import \x7b\n  Foo,\n\x7d from 'x'\nconst enum Color \x7b\x7d"

theorem candidates_fresh_iff_longImport :
    candidates longImport = (["Foo", "Color"] : List Text) ∧ ImportedBelow (codeLines longImport) "Foo" ∧
      DeclaredInName (codeLines longImport) "Color" := by
  have suggested : candidates longImport = (["Foo", "Color"] : List Text) := by decide +kernel
  obtain ⟨-, -, -, -, declared⟩ := candidates_fresh_iff longImport
  have code : codeLines longImport = ([("import \x7b", true), ("  Foo,", false), ("\x7d from    ", false),
      ("const enum Color \x7b\x7d", false)] : List (Text × Bool)) := by decide +kernel
  let color : Declaration := ⟨"enum", " ", "Color", by decide, forall_mem_of_all (by decide), by decide⟩
  have space : ∀ c ∈ some ' ', isWordChar c = false ∧ isNameChar c = false := by
    rintro c ⟨⟩
    decide
  have here : color.In declaringWords "const enum Color \x7b\x7d" 6 :=
    ⟨⟨" tsnoc", "enum Color \x7b\x7d"⟩, " \x7b\x7d", rfl, rfl, by decide, rfl, fun c left => (space c left).1,
      fun c right => (space c right).2⟩
  have inside : ("const enum Color \x7b\x7d".toList, false) ∈ codeLines longImport := code ▸ by decide
  refine ⟨suggested, ?_, (declared "Color" (suggested ▸ by decide)).mp ⟨_, inside, color, 6, here, rfl⟩⟩
  refine ⟨[], "import \x7b", [], ("  Foo,", false), _, code, by decide +kernel, "  ", ",", rfl,
    fun c left => (space c left).2, ?_⟩
  rintro c ⟨⟩
  decide

end Import

end InlineCompletion
