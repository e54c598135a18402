import InlineCompletion.Proofs.Symbol.Declarations
import InlineCompletion.Proofs.Text.FirstOccurrences

/-!
Which names a window is said to have in scope. Declared and assigned ones are identifiers that stand by themselves in the
code of a line. The head of a parameter stands there by itself as well, but it is whatever comes before white space, a
colon or an equals sign, so that it may be no identifier.
-/

namespace InlineCompletion.Variable

open Pattern Text Scan

variable {code line list parameter name : Text} {lines : List Text}

/-! Names that are declared or assigned. -/

theorem declared_eq : declared = declares ["const", "let", "var"] := rfl

theorem of_mem_declared (member : name ∈ captures declared code) :
    name.IsIdentifier ∧ StandsIn isNameChar name code := by
  rw [declared_eq] at member
  obtain ⟨d, column, ⟨place, rest, rfl, -, here⟩, rfl⟩ := exists_of_mem_captures (by decide) member
  exact ⟨d.named, here.standsIn⟩

theorem of_matchStart_assignment {found : Match (Cursor × Cursor)} (here : matchStart assignment code = some found) :
    (found.value.1.between found.value.2).IsIdentifier ∧
      StandsIn isNameChar (found.value.1.between found.value.2) code := by
  obtain ⟨pair, preferred, rfl⟩ := Option.map_eq_some_iff.mp here
  obtain ⟨first, lead, member⟩ := (mem_bind _ _ _ _).mp (List.mem_of_head? preferred)
  obtain ⟨second, word, member⟩ := (mem_bind _ _ _ _).mp member
  obtain ⟨third, gap, member⟩ := (mem_bind _ _ _ _).mp member
  obtain ⟨fourth, typed, member⟩ := (mem_bind _ _ _ _).mp member
  obtain ⟨fifth, equals, member⟩ := (mem_bind _ _ _ _).mp member
  obtain ⟨sixth, -, finish⟩ := (mem_bind _ _ _ _).mp member
  obtain ⟨lead, blank, reads⟩ := reads_many lead
  obtain ⟨word, value⟩ := mem_of_mem_captured word
  obtain ⟨inner, initial, run⟩ := (mem_bind _ _ _ _).mp word
  obtain ⟨c, letter, reads'⟩ := reads_char initial
  obtain ⟨run, all, reads''⟩ := reads_many run
  obtain ⟨gap, blank', reads₃⟩ := reads_many gap
  have named : IsIdentifier (c :: run) := by
    refine ⟨?_, fun d inside => isNameChar_of_isWordChar (all d inside)⟩
    simp only [Bool.or_eq_true, decide_eq_true_eq] at letter
    simp [isNameStart, letter]
  have sign : ∀ d ∈ third.2.after.head?, isNameChar d = false := by
    rcases mem_of_mem_optional typed with there | same
    · obtain ⟨_, colon, -⟩ := (mem_bind _ _ _ _).mp there
      have after : third.2.after = _ := reads_literal colon
      simp [after]
      decide
    · have after : fourth.2.after = _ := reads_literal equals
      rw [← same]
      simp [after]
      decide
  have reads : code = lead ++ first.2.after := reads
  have word : first.2.Reads (c :: run) second.2 := reads'.trans reads''
  have pair_eq : pair.1 = (first.2, second.2) := by rw [List.mem_singleton.mp finish, value]
  rw [pair_eq, word.between_eq]
  refine ⟨named, lead, second.2.after, ?_, fun d last => ?_, ?_⟩
  · rw [reads, show first.2.after = _ from word]
  · exact Property.isBlank_unnamed (blank d (List.mem_of_getLast? last))
  · rw [show second.2.after = _ from reads₃]
    exact Property.forall_head?_append (fun d inside => Property.isBlank_unnamed (blank' d inside)) sign

/-! Parameters. -/

/-- What the name of a parameter may not go on with. -/
def endsName (c : Char) : Bool :=
  c = ':' || c = '=' || isBlank c

/-- The name is the head of the parameter: it stands behind white space and stars, and ends where its type, its default
value or white space begins. -/
def HeadOf (parameter name : Text) : Prop :=
  ∃ gap stars rest, parameter = gap ++ (stars ++ (name ++ rest)) ∧ (∀ c ∈ gap, isBlank c = true) ∧
    (∀ c ∈ stars, c = '*') ∧ name ≠ [] ∧ (∀ c ∈ name, endsName c = false) ∧ (∀ c ∈ name.head?, c ≠ '*') ∧
    ∀ c ∈ rest.head?, endsName c = true

/-- White space at the end of a parameter does not matter. -/
theorem parameterName_eq (parameter : Text) :
    parameterName parameter = ((trimLeft parameter).dropWhile (· = '*')).takeWhile (!endsName ·) := by
  obtain ⟨white, split, blank⟩ := dropTrailing_append isBlank (trimLeft parameter)
  have first : ∀ c ∈ white.head?, isBlank c = true := fun c member => blank c (List.mem_of_head? member)
  conv_rhs => rw [split]
  rw [dropWhile_append_of_stops, takeWhile_append_of_stops]
  · rfl
  · exact fun c member => by simp [endsName, first c member]
  · intro c member
    have white := first c member
    refine decide_eq_false fun same => ?_
    subst same
    cases white

theorem parameterName_eq_iff (some : name ≠ []) : parameterName parameter = name ↔ HeadOf parameter name := by
  rw [parameterName_eq, trimLeft]
  constructor
  · rintro rfl
    refine ⟨parameter.takeWhile isBlank, (parameter.dropWhile isBlank).takeWhile (· = '*'),
      ((parameter.dropWhile isBlank).dropWhile (· = '*')).dropWhile (!endsName ·), ?_,
      List.all_eq_true.mp List.all_takeWhile, ?_, some, ?_, ?_, ?_⟩
    · simp only [List.takeWhile_append_dropWhile]
    · exact fun c member => of_decide_eq_true (List.all_eq_true.mp List.all_takeWhile c member)
    · exact fun c member => by simpa using List.all_eq_true.mp List.all_takeWhile c member
    · intro c member
      have stops := List.head?_dropWhile_not (fun c => decide (c = '*')) (parameter.dropWhile isBlank)
      rw [List.head?_takeWhile] at member
      rw [Option.eq_some_of_filter_eq_some (Option.mem_def.mp member)] at stops
      simpa using stops
    · intro c member
      have stops := List.head?_dropWhile_not (!endsName ·) ((parameter.dropWhile isBlank).dropWhile (· = '*'))
      rw [Option.mem_def.mp member] at stops
      simpa using stops
  · rintro ⟨gap, stars, rest, rfl, blank, starred, -, inside, unstarred, ends⟩
    obtain ⟨c, more, rfl⟩ := List.exists_cons_of_ne_nil some
    have solid : ∀ d ∈ (c :: more ++ rest).head?, isBlank d = false := fun d member => by
      have first := inside d (Option.mem_some.mp member ▸ List.mem_cons_self ..)
      simp only [endsName, Bool.or_eq_false_iff] at first
      exact first.2
    have bare : ∀ d ∈ (c :: more ++ rest).head?, decide (d = '*') = false := fun d member =>
      decide_eq_false (unstarred d member)
    have star : isBlank '*' = false := rfl
    rw [dropWhile_append_eq blank (Property.forall_head?_append (fun d member => starred d member ▸ star) solid),
      dropWhile_append_eq (fun d member => decide_eq_true (starred d member)) bare,
      takeWhile_append_of_stops fun d member => by simp [ends d member], List.takeWhile_eq_self_iff]
    exact fun d member => by simp [inside d member]

theorem mem_parameterNames : name ∈ parameterNames list ↔ ∃ parameter ∈ splitOn ',' list, HeadOf parameter name := by
  simp only [parameterNames, List.mem_filter, List.mem_map]
  constructor
  · rintro ⟨⟨parameter, member, same⟩, some⟩
    exact ⟨parameter, member, (parameterName_eq_iff (by simpa using some)).mp same⟩
  · rintro ⟨parameter, member, head⟩
    have some : name ≠ [] := by
      obtain ⟨-, -, -, -, -, -, some, -⟩ := head
      exact some
    exact ⟨⟨parameter, member, (parameterName_eq_iff some).mpr head⟩, by simpa using some⟩

theorem HeadOf.standsIn (head : HeadOf parameter name) : StandsIn isNameChar name parameter := by
  obtain ⟨gap, stars, rest, rfl, blank, starred, -, -, -, ends⟩ := head
  refine ⟨gap ++ stars, rest, by simp, fun c last => ?_, fun c first => ?_⟩
  · rcases List.mem_append.mp (List.mem_of_getLast? last) with white | star
    · exact Property.isBlank_unnamed (blank c white)
    · rw [starred c star]
      decide
  · have ends := ends c first
    simp only [endsName, Bool.or_eq_true, decide_eq_true_eq] at ends
    rcases ends with (rfl | rfl) | white
    · decide
    · decide
    · exact Property.isBlank_unnamed white

/-- What stands in front of a list of parameters. -/
def functionHead : Pattern Unit :=
  choice
    [do literal "function"; blanks; many isNameChar,
    do literal "def"; someBlanks; many1 isWordChar,
    do literal "func"; someBlanks; many1 isWordChar]

theorem passing_functionHead : Passing functionHead := by
  refine passing_choice fun p member => ?_
  rcases List.mem_cons.mp member with rfl | member
  · exact (passing_literal _).bind fun _ => (passing_many _).bind fun _ => passing_many _
  rcases List.mem_cons.mp member with rfl | member
  · exact (passing_literal _).bind fun _ => (passing_many1 _).bind fun _ => passing_many1 _
  · cases List.mem_singleton.mp member
    exact (passing_literal _).bind fun _ => (passing_many1 _).bind fun _ => passing_many1 _

theorem passing_parameterList : Passing parameterList :=
  passing_functionHead.bind fun _ => (passing_many _).bind fun _ => (passing_literal _).bind fun _ =>
    (passing_captured (passing_many _)).bind fun _ => (passing_literal _).bind fun _ => passing_pure _

/-- A list of parameters stands between parentheses. -/
theorem standsIn_of_mem_parameterLists (member : list ∈ captures parameterList code) : StandsIn isNameChar list code := by
  obtain ⟨place, ends, last, rfl, preferred, rfl⟩ := exists_prefers_of_mem_captures passing_parameterList member
  obtain ⟨first, head, member⟩ := (mem_bind _ _ _ _).mp (List.mem_of_head? preferred)
  obtain ⟨second, gap, member⟩ := (mem_bind _ _ _ _).mp member
  obtain ⟨third, opens, member⟩ := (mem_bind _ _ _ _).mp member
  obtain ⟨fourth, within, member⟩ := (mem_bind _ _ _ _).mp member
  obtain ⟨fifth, closes, finish⟩ := (mem_bind _ _ _ _).mp member
  obtain ⟨head, passes⟩ := passing_functionHead _ _ head
  obtain ⟨gap, -, reads⟩ := reads_many gap
  obtain ⟨within, value⟩ := mem_of_mem_captured within
  obtain ⟨run, -, reads'⟩ := reads_many within
  have ends_eq : ends = (third.2, fourth.2) := (congrArg Prod.fst (List.mem_singleton.mp finish)).trans value
  have whole : place.after = head ++ (gap ++ ('(' :: (run ++ (')' :: fifth.2.after)))) := by
    rw [passes.1, show first.2.after = _ from reads, show second.2.after = _ from reads_literal opens,
      show third.2.after = _ from reads', show fourth.2.after = _ from reads_literal closes]
    rfl
  rw [ends_eq, Cursor.Reads.between_eq reads']
  refine ⟨place.before.reverse ++ (head ++ (gap ++ ['('])), ')' :: fifth.2.after, ?_, ?_, ?_⟩
  · simp [Cursor.text, whole]
  · simp
    decide
  · simp
    decide

/-- The parameter stands in a list of them in the code of the line. -/
def IsParameter (line parameter : Text) : Prop :=
  ∃ list ∈ captures parameterList (blankLiterals line), parameter ∈ splitOn ',' list

theorem mem_introduced : name ∈ introduced line ↔
    (name ∈ captures declared (blankLiterals line) ∨
      ∃ found, matchStart assignment (blankLiterals line) = some found ∧ found.value.1.between found.value.2 = name) ∨
    ∃ parameter, IsParameter line parameter ∧ HeadOf parameter name := by
  simp only [introduced, List.mem_append, Option.mem_toList, Option.map_eq_some_iff, List.mem_flatMap, mem_parameterNames,
    IsParameter]
  refine or_congr_right ⟨?_, ?_⟩
  · rintro ⟨list, read, parameter, member, head⟩
    exact ⟨parameter, ⟨list, read, member⟩, head⟩
  · rintro ⟨parameter, ⟨list, read, member⟩, head⟩
    exact ⟨list, read, parameter, member, head⟩

theorem standsIn_of_mem_introduced (member : name ∈ introduced line) :
    StandsIn isNameChar name (blankLiterals line) ∧ ∀ c ∈ name, c ≠ ' ' := by
  have solid (named : name.IsIdentifier) : ∀ c ∈ name, c ≠ ' ' := by
    rintro c inside rfl
    exact absurd (named.all _ inside) (by decide)
  rcases mem_introduced.mp member with (declared | ⟨found, here, rfl⟩) | ⟨parameter, ⟨list, read, member⟩, head⟩
  · obtain ⟨named, stands⟩ := of_mem_declared declared
    exact ⟨stands, solid named⟩
  · obtain ⟨named, stands⟩ := of_matchStart_assignment here
    exact ⟨stands, solid named⟩
  · have piece : StandsIn isNameChar parameter list := standsIn_of_mem_splitOn (by decide) member
    refine ⟨(head.standsIn.trans piece).trans (standsIn_of_mem_parameterLists read), ?_⟩
    obtain ⟨-, -, -, -, -, -, -, name, -⟩ := head
    rintro c inside rfl
    exact absurd (name _ inside) (by decide)

/-! Names in scope. -/

theorem mem_allInScope : name ∈ allInScope lines ↔ (∃ line ∈ lines, name ∈ introduced line) ∧ name ∉ keywords := by
  simp [allInScope, mem_firstOccurrences]

theorem isIdentifier_of_mem_keywords (member : name ∈ keywords) : name.IsIdentifier := by
  revert name
  decide

theorem isIdentifier_or_headOf (member : name ∈ introduced line) :
    name.IsIdentifier ∨ ∃ parameter, IsParameter line parameter ∧ HeadOf parameter name := by
  rcases mem_introduced.mp member with (declared | ⟨found, here, rfl⟩) | head
  · exact .inl (of_mem_declared declared).1
  · exact .inl (of_matchStart_assignment here).1
  · exact .inr head

/-- A declared name is in scope, unless it is a keyword or its declaring word is read in the name of another one. -/
theorem mem_allInScope_of_declaration {d : Declaration} {column : Nat} (inside : line ∈ lines)
    (here : d.In ["const", "let", "var"] (blankLiterals line) column)
    (apart : ¬ InName ["const", "let", "var"] (blankLiterals line) column) (free : d.name ∉ keywords) :
    d.name ∈ allInScope lines := by
  have read := (here.mem_captures (by decide)).resolve_right apart
  rw [← declared_eq] at read
  exact mem_allInScope.mpr ⟨⟨line, inside, mem_introduced.mpr (.inl (.inl read))⟩, free⟩

/-- At most ten names are in scope, the first ones of all that the window introduces. They are different, none of them
is a keyword, and each stands by itself in a line of the window, outside of literals. One that is no identifier is the
head of a parameter, and all names are identifiers exactly if the heads of all parameters are. -/
theorem inScope_names (document : Document) (position : Position) (window : Int) :
    let lines := document.linesAbove position window
    let listed := inScope document position window
    listed.length ≤ 10 ∧ listed <+: allInScope lines ∧ (listed.length < 10 → listed = allInScope lines) ∧ listed.Nodup ∧
      (∀ name ∈ listed, name ∉ keywords ∧ ∃ line ∈ lines, ∃ column, Seen isNameChar line column name) ∧
      (∀ name ∈ listed, ¬ name.IsIdentifier →
        ∃ line ∈ lines, ∃ parameter, IsParameter line parameter ∧ HeadOf parameter name) ∧
      ((∀ name ∈ allInScope lines, name.IsIdentifier) ↔
        ∀ line ∈ lines, ∀ parameter, IsParameter line parameter → ∀ name, HeadOf parameter name → name.IsIdentifier) := by
  intro lines listed
  have first : listed <+: allInScope lines := List.take_prefix ..
  have introduced (name : Text) (member : name ∈ listed) :
      (∃ line ∈ lines, name ∈ introduced line) ∧ name ∉ keywords := mem_allInScope.mp (first.subset member)
  refine ⟨List.length_take_le .., first, fun few => ?_, first.sublist.nodup (nodup_firstOccurrences _),
    fun name member => ?_, fun name member other => ?_, ?_⟩
  · refine List.take_of_length_le (Nat.le_of_not_lt fun more => Nat.ne_of_lt few ?_)
    exact List.length_take_of_le (Nat.le_of_lt more)
  · obtain ⟨⟨line, inside, read⟩, free⟩ := introduced name member
    obtain ⟨stands, solid⟩ := standsIn_of_mem_introduced read
    exact ⟨free, line, inside, exists_seen stands solid⟩
  · obtain ⟨⟨line, inside, read⟩, -⟩ := introduced name member
    exact ⟨line, inside, (isIdentifier_or_headOf read).resolve_left other⟩
  · constructor
    · intro all line inside parameter given name head
      by_cases reserved : name ∈ keywords
      · exact isIdentifier_of_mem_keywords reserved
      · exact all name (mem_allInScope.mpr ⟨⟨line, inside, mem_introduced.mpr (.inr ⟨parameter, given, head⟩)⟩, reserved⟩)
    · intro heads name member
      obtain ⟨⟨line, inside, read⟩, -⟩ := mem_allInScope.mp member
      rcases isIdentifier_or_headOf read with named | ⟨parameter, given, head⟩
      · exact named
      · exact heads line inside parameter given name head

/-- A function with a marker between its parameters. -/
def markedParameters : Document :=
  .ofText "def f(a, /, b):\n  " "f.py" none

/-- The marker is listed as well. -/
theorem inScope_names_marked :
    inScope markedParameters ⟨1, 2⟩ 50 = (["a", "/", "b"] : List Text) ∧ ¬ IsIdentifier "/" ∧
      ∃ line ∈ markedParameters.linesAbove ⟨1, 2⟩ 50, ∃ parameter, IsParameter line parameter ∧ HeadOf parameter "/" := by
  have listed : inScope markedParameters ⟨1, 2⟩ 50 = (["a", "/", "b"] : List Text) := by decide +kernel
  have other : ¬ IsIdentifier "/" := by decide
  obtain ⟨-, -, -, -, -, heads, -⟩ := inScope_names markedParameters ⟨1, 2⟩ 50
  exact ⟨listed, other, heads "/" (listed ▸ by simp) other⟩

end InlineCompletion.Variable
