import InlineCompletion.Context.Classify
import InlineCompletion.Proofs.Reply.Nesting
import InlineCompletion.Proofs.Symbol.Keys
import InlineCompletion.Proofs.Symbol.Reach
import InlineCompletion.Proofs.Text.FirstOccurrences
import InlineCompletion.Reply.Cleaning
import InlineCompletion.Reply.Overlap
import InlineCompletion.Symbol.Property

/-!
The property that is being typed. Its name stands on the cursor line, and so it is one of the names that
the enclosing object has already; a reply that repeats the name is then taken for a property that is not
new. Without that name the reply would be kept, and its value would be what is inserted.
-/

namespace InlineCompletion

namespace Text

variable {name value indentation : Text}

/-- A single token of ASCII letters and digits. -/
def IsToken (text : Text) : Prop :=
  text ≠ [] ∧ ∀ c ∈ text, c.isAlphanum = true

theorem IsToken.all (token : value.IsToken) : ∀ c ∈ value, isNameChar c = true :=
  fun c member => isNameChar_of_isAlphanum (token.2 c member)

/-- A token is a value, without a comma at its end. -/
theorem IsToken.solid (token : value.IsToken) {c : Char} (member : c ∈ value) :
    isBlank c = false ∧ c ≠ ',' := by
  have given := token.all c member
  refine ⟨not_isBlank_of_isNameChar given, ?_⟩
  rintro rfl
  cases given

theorem IsToken.isValue (token : value.IsToken) : value.IsValue where
  filled := token.1
  first := fun _ member => (token.solid (List.mem_of_head? member)).1
  last := fun _ member => (token.solid (List.mem_of_getLast? member)).1
  plain := by
    have odd : ∀ c ∈ ['\n', '=', '/', doubleQuote, singleQuote], isNameChar c = false := forall_mem_of_all rfl
    intro c member plain
    cases (odd c plain).symm.trans (token.all c member)

theorem IsToken.isWellFormed (token : value.IsToken) : value.IsWellFormed where
  toIsValue := token.isValue
  nested := isNested_of_plain fun c member => not_bracket_of_isNameChar (token.all c member)
  dense := hasHollowPair_of_plain fun c member => (not_bracket_of_isNameChar (token.all c member)).1
  ended := fun comma => (token.solid (List.mem_of_getLast? comma)).2 rfl

theorem IsToken.not_endsInBrace (token : value.IsToken) : ¬ EndsInBrace value := by
  rintro ⟨body, tail, rfl, -⟩
  cases token.all closeBrace (List.mem_append_right body (List.mem_cons_self ..))

/-- Nothing stands in a property but its name, a colon, a space and its value. -/
theorem lacks_property (named : name.IsIdentifier) (valued : ∀ c ∈ value, isNameChar c = true) {c : Char}
    (member : c ∈ property name value) : isNameChar c = true ∨ c = ':' ∨ c = ' ' := by
  simp only [property, List.mem_append, List.mem_cons] at member
  rcases member with member | rfl | rfl | member
  · exact Or.inl (named.all c member)
  · exact Or.inr (Or.inl rfl)
  · exact Or.inr (Or.inr rfl)
  · exact Or.inl (valued c member)

end Text

namespace Property

open Pattern Text

variable {name value indentation : Text}

/-- A key is read off a line that begins with one. -/
theorem mem_captures (named : name.IsIdentifier) (indented : ∀ c ∈ indentation, isBlank c = true) :
    name ∈ Variable.captures key (indentation ++ property name []) := by
  let label : Label :=
    { gap := indentation, opening := [], name, closing := [], space := [], named
      blank := by simpa using indented
      quoted := by simp }
  have stands : Spelling.StandsAt ⟨[], label, .inl rfl⟩ [] (indentation ++ property name []) [' '] :=
    ⟨by simp [label, Spelling.text, Label.text, property], fun _ => rfl, by simp⟩
  rw [captures_key]
  exact List.mem_map.mpr ⟨_, mem_keysIn.mpr ⟨_, [], _, _, rfl, stands, rfl⟩, rfl⟩

/-- The name on the cursor line is one of those that the object has already. -/
theorem mem_existing {document : Document} {position : Position} {window : Int}
    (inObject : ObjectLiteral.isOpen (document.linesAbove position window) = true)
    (typed : document.before position = indentation ++ property name []) (named : name.IsIdentifier)
    (indented : ∀ c ∈ indentation, isBlank c = true) : name ∈ existing document position window := by
  obtain ⟨index, column, brace⟩ := ObjectLiteral.exists_brace inObject
  have plain : ∀ c ∈ document.before position, c ≠ closeBrace ∧ c ≠ openBrace ∧ c ≠ ';' := by
    intro c member
    rw [typed] at member
    rcases List.mem_append.mp member with member | member
    · have blank := indented c member
      refine ⟨?_, ?_, ?_⟩ <;> (rintro rfl; cases blank)
    · rcases lacks_property named (fun _ member => by cases member) member with given | rfl | rfl
      · refine ⟨?_, ?_, ?_⟩ <;> (rintro rfl; cases given)
      · decide
      · decide
  have above := brace
  unfold Document.linesAbove at above
  rw [Scan.unmatchedBrace_append plain] at above
  have inside : index < (document.linesBetween (max 0 (position.line - window)) position.line).length := by
    have bound := Scan.seekBraceUp_lt above
    rwa [List.length_reverse] at bound
  unfold existing
  simp only [brace]
  refine mem_firstOccurrences.mpr ?_
  -- The brace stands above the cursor line, so that the whole of that is read for keys.
  unfold keysAfter Document.linesAbove
  rw [List.drop_append_of_le_length (Nat.le_of_lt inside), List.drop_eq_getElem_cons inside]
  refine List.mem_flatMap.mpr ⟨document.before position, ?_, typed ▸ mem_captures named indented⟩
  simp

end Property

namespace Reasoning

open Pattern

theorem needs_openTag : Needs (· = '<') openTag :=
  needs_bind (needs_literal '<' [])

theorem needs_block : Needs (· = '<') block :=
  needs_bind needs_openTag

theorem needs_danglingStart : Needs (· = '<') danglingStart :=
  needs_bind needs_openTag

theorem needs_wrapperTag : Needs (· = '<') wrapperTag :=
  needs_bind (needs_literal '<' [])

theorem needs_danglingEnd : Needs (· = '<') danglingEnd :=
  needs_bind_of_forward (forward_place _) fun _ => needs_bind_of_forward (forward_fewest _) fun _ =>
    needs_bind (needs_literal '<' ['/'])

/-- Text without tags has no reasoning in it. -/
theorem strip_eq {text : Text} (lacks : ∀ c ∈ text, decide (c = '<') = false) : strip text = text := by
  unfold strip eraseAll
  rw [needs_block.replaceAll_eq lacks, needs_danglingEnd.replaceAll_eq lacks,
    needs_danglingStart.replaceAll_eq lacks, needs_wrapperTag.replaceAll_eq lacks]

end Reasoning

theorem Fence.extract_eq {text : Text} (lacks : Text.backtick ∉ text) : extract text = text := by
  have none : Text.indexOf? fence text = none :=
    Text.indexOf?_eq_none_iff.mpr fun inside => lacks (inside.subset (List.mem_cons_self ..))
  unfold extract
  rw [none]

namespace ReplyProperty

open Pattern Text

variable {name value : Text}

/-- A character that no property has by itself. -/
theorem lacks (named : name.IsIdentifier) (token : value.IsToken) {d : Char} (odd : isNameChar d = false)
    (colon : d ≠ ':') (space : d ≠ ' ') : ∀ c ∈ property name value, decide (c = d) = false := by
  intro c member
  refine decide_eq_false fun same => ?_
  rcases lacks_property named token.all (same ▸ member) with given | rfl | rfl
  · cases odd.symm.trans given
  · exact colon rfl
  · exact space rfl

end ReplyProperty

/-- In an object literal a reply that is a property is kept, unless its name is there already. -/
theorem Reply.clean_property {name value : Text} (named : name.IsIdentifier) (token : value.IsToken)
    {facts : Classification} (inObject : facts.inObjectLiteral = true) (quiet : facts.inLogCall = false)
    (unquoted : facts.inStringLiteral = false) (typed : Text) (existing : List Text) :
    clean (Text.property name value) facts typed existing =
      if existing.contains name then [] else Text.property name value ++ [','] := by
  have absent {d : Char} (odd : Text.isNameChar d = false) (colon : d ≠ ':') (space : d ≠ ' ') :=
    ReplyProperty.lacks named token odd colon space
  have plain : unwrap facts (Text.property name value) = Text.property name value := by
    unfold unwrap
    rw [Reasoning.strip_eq (absent (by decide) (by decide) (by decide))]
    dsimp only
    rw [Fence.extract_eq fun member =>
      of_decide_eq_false (absent (by decide) (by decide) (by decide) _ member) rfl]
    exact ite_self _
  have visible : Text.allBlank (Text.property name value) = false :=
    Text.allBlank_eq_false (c := ':') (by simp [Text.property]) rfl
  have shown : Text.allBlank (Text.property name value ++ [',']) = false :=
    Text.allBlank_eq_false (c := ',') (by simp) rfl
  have fits : cleanFor facts typed existing (Text.property name value) =
      if existing.contains name then [] else Text.property name value ++ [','] := by
    unfold cleanFor
    rw [quiet, unquoted, inObject,
      ReplyProperty.extract_of_not_endsInBrace named token.isWellFormed existing token.not_endsInBrace]
    rfl
  unfold clean
  rw [plain, visible, fits]
  by_cases there : existing.contains name = true
  · rw [if_pos there]
    rfl
  · rw [if_neg there]
    dsimp only
    rw [shown]
    rfl

namespace Overlap

open Text

variable {name value indentation : Text}

theorem needs_leadingDeclaration : Pattern.Needs (· = '=') leadingDeclaration :=
  Pattern.needs_bind_of_forward (Pattern.forward_place _) fun _ =>
    Pattern.needs_bind_of_forward Pattern.forward_blanks fun _ =>
    Pattern.needs_bind_of_forward (Pattern.forward_oneOfWords _) fun _ =>
    Pattern.needs_bind_of_forward Pattern.forward_someBlanks fun _ =>
    Pattern.needs_bind_of_forward (Pattern.forward_many1 _) fun _ =>
    Pattern.needs_bind_of_forward Pattern.forward_blanks fun _ =>
    Pattern.needs_bind (Pattern.needs_literal '=' [])

/-- The first tail that begins at a token follows the indentation. -/
theorem tokenTails_indentation (blank : ∀ c ∈ indentation, isBlank c = true) {previous : Option Char}
    (outside : ∀ c ∈ previous, isNameChar c = false) {first : Char} (solid : isBlank first = false)
    (rest : Text) :
    ∃ more, tokenTails previous (indentation ++ first :: rest) = (first :: rest) :: more := by
  induction indentation generalizing previous with
  | nil =>
    have starts : isBoundary previous first = true := by
      unfold isBoundary
      cases previous with
      | none => simp [solid]
      | some c => simp [solid, outside c rfl]
    rw [List.nil_append, tokenTails, if_pos starts]
    exact ⟨_, rfl⟩
  | cons c more ih =>
    have white : isBlank c = true := blank c (List.mem_cons_self ..)
    have within : isBoundary previous c = false := by simp [isBoundary, white]
    rw [List.cons_append, tokenTails, if_neg (by simp [within])]
    refine ih (fun c member => blank c (List.mem_cons_of_mem _ member)) fun d member => ?_
    cases member
    refine Bool.eq_false_iff.mpr fun given => ?_
    cases white.symm.trans (not_isBlank_of_isNameChar given)

/-- A line that ends behind a colon and a space continues no list and opens no object. -/
theorem not_endsWith_typed (named : name.IsIdentifier) (blank : ∀ c ∈ indentation, isBlank c = true)
    {d : Char} (odd : isNameChar d = false) (mark : d ≠ ':') (solid : isBlank d = false) :
    endsWith (trim (indentation ++ property name [])) [d] = false := by
  refine Bool.eq_false_iff.mpr fun same => ?_
  have member := trim_subset _ ((List.isSuffixOf_iff_suffix.mp same).subset (List.mem_singleton_self d))
  rcases List.mem_append.mp member with member | member
  · cases solid.symm.trans (blank d member)
  · rcases lacks_property named (fun _ member => by cases member) member with given | rfl | rfl
    · cases odd.symm.trans given
    · exact mark rfl
    · cases solid

/-- No white space stands at the start of a property. -/
theorem head?_typed (named : name.IsIdentifier) (rest : Text) :
    ∀ c ∈ (property name rest).head?, isBlank c = false := fun c member =>
  not_isBlank_of_isNameChar (isNameChar_of_isNameStart (Property.head?_of_isIdentifier named _ c member))

theorem dropEcho_property (name rest : Text) :
    dropEcho (property name rest) (property name []) = some rest := by
  have whole : property name rest = property name [] ++ rest := by rw [property_append, List.nil_append]
  have starts : startsWith (property name rest) (property name []) = true :=
    List.isPrefixOf_iff_prefix.mpr ⟨rest, whole.symm⟩
  unfold dropEcho
  rw [if_pos starts, whole, List.drop_left]

/-- What repeats the name that is typed leaves what follows the name. -/
theorem remove_property (named : name.IsIdentifier) (blank : ∀ c ∈ indentation, isBlank c = true)
    (rest : Text) : remove (property name rest) (indentation ++ property name []) = rest := by
  obtain ⟨more, tails⟩ : ∃ more,
      tokenTails none (indentation ++ property name []) = property name [] :: more := by
    have solid := head?_typed named []
    cases name with
    | nil => exact named.elim
    | cons first letters =>
      exact tokenTails_indentation blank (fun _ member => by cases member) (solid first rfl) _
  have visible : allBlank (indentation ++ property name []) = false :=
    allBlank_eq_false (c := ':') (by simp [property]) rfl
  unfold remove
  rw [visible, trimLeft_eq (head?_typed named rest), tails, List.findSome?_cons, dropEcho_property]
  rfl

/-- Behind the typed name only the value of a property is left to insert. -/
theorem unique_property (named : name.IsIdentifier) (token : value.IsToken)
    (blank : ∀ c ∈ indentation, isBlank c = true) {facts : Classification}
    (inObject : facts.inObjectLiteral = true) (quiet : facts.inLogCall = false)
    (unquoted : facts.inStringLiteral = false) :
    unique (property name value ++ [',']) (indentation ++ property name []) facts =
      some (value ++ [',']) := by
  have same : Pattern.eraseAll leadingDeclaration (property name value ++ [',']) =
      property name value ++ [','] := by
    refine needs_leadingDeclaration.replaceAll_eq (fun c member => ?_) _
    rcases List.mem_append.mp member with member | member
    · exact ReplyProperty.lacks named token (by decide) (by decide) (by decide) c member
    · cases List.mem_singleton.mp member
      decide
  have trimmed : trim (property name value ++ [',']) = property name value ++ [','] := by
    unfold trim
    rw [property_append, trimLeft_eq (head?_typed named _), ← property_append]
    refine dropTrailing_eq fun c member => ?_
    rw [List.getLast?_concat] at member
    cases member
    rfl
  have visible : allBlank (property name value ++ [',']) = false := allBlank_eq_false (c := ',') (by simp) rfl
  have filled : (property name value ++ [',']).isEmpty = false := by simp
  have shown : allBlank (value ++ [',']) = false := allBlank_eq_false (c := ',') (by simp) rfl
  have left : remove (property name value ++ [',']) (indentation ++ property name []) = value ++ [','] := by
    rw [property_append, remove_property named blank]
  have comma := not_endsWith_typed named blank (d := ',') rfl (by decide) rfl
  have brace := not_endsWith_typed named blank (d := Text.openBrace) rfl (by decide) rfl
  have single : uniqueProperty (property name value ++ [',']) (indentation ++ property name []) =
      some (value ++ [',']) := by
    unfold uniqueProperty
    dsimp only
    rw [same, trimmed, filled, show ("," : String).toList = [','] from rfl, comma, brace, left]
    unfold someUnlessBlank
    rw [shown]
    rfl
  unfold unique
  rw [visible, quiet, unquoted, inObject, single]
  rfl

end Overlap

end InlineCompletion
