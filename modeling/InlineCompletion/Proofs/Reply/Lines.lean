import InlineCompletion.Proofs.Scan.Marks
import InlineCompletion.Proofs.Text.Joins
import InlineCompletion.Proofs.Text.Names
import InlineCompletion.Reply.Property

/-!
A line that is a property. Whatever its value is, as long as that has neither white space around it nor what
would be taken for a comment, a quoted key or a declaration, the line is read as that property; only commas at
the end of the value are taken off.
-/

namespace InlineCompletion

theorem Scan.dropComment_eq {text : Text} (lacks : '/' ∉ text) : dropComment text = text := by
  rcases dropComment_cases text with ⟨start, -, comment, -⟩ | ⟨same, -⟩
  · have begins := List.isPrefixOf_iff_prefix.mp comment.1
    exact absurd (List.mem_of_mem_drop (begins.subset (List.mem_cons_self ..))) lacks
  · exact same

namespace Text

/-- A property on a line of its own. -/
def property (name value : Text) : Text :=
  name ++ (':' :: ' ' :: value)

theorem property_append (name before after : Text) :
    property name before ++ after = property name (before ++ after) := by
  simp [property]

/-- A value on one line, without white space around it, and without quotes, equals signs and slashes. -/
structure IsValue (value : Text) : Prop where
  filled : value ≠ []
  first : ∀ c ∈ value.head?, isBlank c = false
  last : ∀ c ∈ value.getLast?, isBlank c = false
  plain : ∀ c ∈ value, c ∉ ['\n', '=', '/', doubleQuote, singleQuote]

theorem IsValue.not_mem {value : Text} (valued : value.IsValue) {c : Char}
    (odd : c ∈ ['\n', '=', '/', doubleQuote, singleQuote]) : c ∉ value :=
  fun member => valued.plain c member odd

end Text

namespace ReplyProperty

open Pattern Text

variable {name value text : Text}

/-! What the patterns need. -/

theorem forward_declarators : Forward declarators :=
  forward_oneOfWords _

theorem needs_declarationOpen : Needs (· = '=') declarationOpen := by
  refine needs_bind_of_forward forward_declarators fun _ => needs_bind_of_forward forward_someBlanks fun _ =>
    needs_bind_of_forward (forward_many1 _) fun _ => needs_bind_of_forward forward_blanks fun _ =>
    needs_bind_of_forward (forward_optional ?_) fun _ => needs_bind (needs_literal '=' [])
  exact (forward_literal _).bind fun _ => forward_blanks.bind fun _ =>
    (forward_many1 _).bind fun _ => forward_blanks

theorem needs_assignmentOpen : Needs (· = '=') assignmentOpen :=
  needs_bind_of_forward (forward_many1 _) fun _ => needs_bind_of_forward forward_blanks fun _ =>
    needs_bind (needs_literal '=' [])

theorem needs_declaration : Needs (· = '=') declaration :=
  needs_bind_of_forward forward_declarators fun _ => needs_bind_of_forward forward_someBlanks fun _ =>
    needs_bind_of_forward (forward_many1 _) fun _ => needs_bind_of_forward forward_blanks fun _ =>
    needs_literal '=' []

theorem needs_quotedColon : Needs (· = doubleQuote) quotedColon :=
  needs_bind (needs_char fun _ => id)

theorem needs_quotedKey : Needs (fun c => c = doubleQuote || c = singleQuote) quotedKey :=
  needs_bind (needs_char fun _ => id)

/-! The line. -/

theorem not_mem_property (named : name.IsIdentifier) {c : Char} (odd : isNameChar c = false)
    (apart : c ∉ [':', ' ']) (absent : c ∉ value) : c ∉ property name value := by
  simp only [List.mem_cons, List.not_mem_nil, or_false, not_or] at apart
  simp only [property, List.mem_append, List.mem_cons, not_or]
  refine ⟨fun member => ?_, apart.1, apart.2, absent⟩
  cases odd.symm.trans (named.all c member)

theorem head?_property (named : name.IsIdentifier) (value : Text) :
    ∀ c ∈ (property name value).head?, isNameStart c = true :=
  Property.head?_of_isIdentifier named _

theorem getLast?_property (filled : value ≠ []) : (property name value).getLast? = value.getLast? := by
  obtain ⟨c, rest, rfl⟩ := List.exists_cons_of_ne_nil filled
  unfold property
  rw [List.getLast?_append_cons, List.getLast?_cons_cons, List.getLast?_cons_cons]

theorem trim_property (named : name.IsIdentifier) (valued : value.IsValue) :
    trim (property name value) = property name value := by
  unfold trim
  rw [trimLeft_eq fun c member =>
    not_isBlank_of_isNameChar (isNameChar_of_isNameStart (head?_property named _ c member))]
  refine dropTrailing_eq fun c member => ?_
  rw [getLast?_property valued.filled] at member
  exact valued.last c member

theorem prefers_keyPattern (named : name.IsIdentifier) (first : ∀ c ∈ value.head?, isBlank c = false) :
    ∃ before, Prefers keyPattern (Cursor.start (property name value))
      (Cursor.start (property name value), ⟨name.reverse, ':' :: ' ' :: value⟩) ⟨before, value⟩ := by
  have word : Prefers Pattern.name ⟨[], name ++ ':' :: ' ' :: value⟩ ()
      ⟨name.reverse ++ [], ':' :: ' ' :: value⟩ :=
    Property.prefers_name named (fun c member => by cases member; decide) []
  rw [List.append_nil] at word
  have alone : Prefers (star (someBlanks >>= fun _ => Pattern.name)) ⟨name.reverse, ':' :: ' ' :: value⟩ ()
      ⟨name.reverse, ':' :: ' ' :: value⟩ :=
    prefers_star (bind_eq_nil (bind_eq_nil (char_eq_nil (by decide) _ _)))
  have names : Prefers (Pattern.name >>= fun _ => star (someBlanks >>= fun _ => Pattern.name))
      (Cursor.start (property name value)) () ⟨name.reverse, ':' :: ' ' :: value⟩ := word.bind alone
  have gap : Prefers blanks ⟨name.reverse, [] ++ ':' :: ' ' :: value⟩ ()
      ⟨[] ++ name.reverse, ':' :: ' ' :: value⟩ :=
    prefers_many (fun _ member => by cases member) (fun c member => by cases member; decide) _
  have colon (before : Text) : Prefers (literal ":") ⟨before, [':'] ++ ' ' :: value⟩ ()
      ⟨[':'] ++ before, ' ' :: value⟩ :=
    prefers_literal [':'] before _
  have space (before : Text) : Prefers blanks ⟨before, [' '] ++ value⟩ () ⟨[' '] ++ before, value⟩ :=
    prefers_many (List.all_eq_true.mp rfl) first before
  exact ⟨_, names.captured.bind <| gap.bind <| (colon _).bind <| (space _).bind <| prefers_pure _ _⟩

/-- What is left of the text behind a colon as the value of a property. -/
def withoutCommas (given : Text) : Text :=
  trimRight (dropTrailing (· = ',') (trimRight given))

theorem withoutCommas_eq (last : ∀ c ∈ value.getLast?, isBlank c = false ∧ c ≠ ',') :
    withoutCommas value = value := by
  have ends : trimRight value = value := dropTrailing_eq fun c member => (last c member).1
  unfold withoutCommas
  rw [ends, dropTrailing_eq fun c member => decide_eq_false (last c member).2, ends]

theorem split_property (named : name.IsIdentifier) (first : ∀ c ∈ value.head?, isBlank c = false) :
    split (property name value) = some (name, withoutCommas value) := by
  obtain ⟨before, prefers⟩ := prefers_keyPattern named first
  have some : name ≠ [] := by
    rintro rfl
    exact named
  have read : Cursor.between (Cursor.start (property name value)) ⟨name.reverse, ':' :: ' ' :: value⟩ = name :=
    Cursor.Reads.between_eq rfl
  have word : (words (name ++ [])).headD [] = name := headD_words some
    (fun c member => not_isBlank_of_isNameChar (named.all c member)) fun _ member => by cases member
  rw [List.append_nil] at word
  unfold split matchStart
  rw [prefers.matchAt, Option.map_some, read, word]
  rfl

theorem isAdmissible_iff {existing : List Text} :
    isAdmissible existing name value = true ↔
      value ≠ [] ∧ (∀ c ∈ value.getLast?, c ∉ [Text.openBrace, '[', '(']) ∧ name ∉ existing := by
  have ends : endsWithAny value [[Text.openBrace], "[", "("] = true ↔
      ∃ c ∈ value.getLast?, c ∈ [Text.openBrace, '[', '('] := by
    simp only [endsWithAny, List.any_cons, List.any_nil, Bool.or_false, Bool.or_eq_true,
      show ("[" : String).toList = ['['] from rfl, show ("(" : String).toList = ['('] from rfl,
      endsWith_singleton]
    simp only [List.mem_cons, List.not_mem_nil, or_false, Option.mem_def]
    constructor
    · rintro (last | last | last)
      · exact ⟨_, last, .inl rfl⟩
      · exact ⟨_, last, .inr (.inl rfl)⟩
      · exact ⟨_, last, .inr (.inr rfl)⟩
    · rintro ⟨c, last, rfl | rfl | rfl⟩
      · exact .inl last
      · exact .inr (.inl last)
      · exact .inr (.inr last)
  unfold isAdmissible
  rw [Bool.and_eq_true, Bool.and_eq_true, Bool.not_eq_true', Bool.not_eq_true', Bool.not_eq_true',
    Bool.eq_false_iff (b := endsWithAny _ _), Ne, ends, List.isEmpty_eq_false_iff, and_assoc]
  simp

/-- A line with a property gives that property, if it is admissible. -/
theorem ofLine_property (named : name.IsIdentifier) (valued : value.IsValue) (existing : List Text) :
    ofLine existing (property name value) =
      if isAdmissible existing name (withoutCommas value) then
        some (property name (withoutCommas value) ++ [','])
      else none := by
  have starts (d : Char) (odd : isNameStart d = false) : startsWith (property name value) [d] = false := by
    refine Bool.eq_false_iff.mpr fun same => ?_
    obtain ⟨rest, same⟩ := List.isPrefixOf_iff_prefix.mp same
    have first := head?_property named value d (by rw [← same]; rfl)
    cases odd.symm.trans first
  have lacks {d : Char} (odd : d ∈ ['=', doubleQuote, singleQuote]) :
      ∀ c ∈ property name value, decide (c = d) = false := by
    have all : ∀ d ∈ ['=', doubleQuote, singleQuote], isNameChar d = false ∧ d ∉ [':', ' '] ∧
        d ∈ ['\n', '=', '/', doubleQuote, singleQuote] := forall_mem_of_all rfl
    obtain ⟨other, apart, plain⟩ := all d odd
    intro c member
    refine decide_eq_false fun same => ?_
    exact not_mem_property named other apart (valued.not_mem plain) (same ▸ member)
  have bare : bareKeys (property name value) = property name value := by
    refine needs_quotedKey.replaceAll_eq (fun c member => ?_) _
    rw [lacks (by decide) c member, lacks (by decide) c member]
    rfl
  have equals := lacks (d := '=') (by decide)
  have some : (property name value).isEmpty = false := by
    unfold property
    cases name <;> rfl
  have outside : startsWithAny (property name value) ["/", [Text.openBrace], [Text.closeBrace]] = false := by
    simp only [startsWithAny, List.any_cons, List.any_nil]
    rw [show ("/" : String).toList = ['/'] from rfl, starts '/' (by decide), starts _ (by decide),
      starts _ (by decide)]
    rfl
  unfold ofLine
  rw [some, outside, needs_declaration.occursIn_eq equals, needs_assignmentOpen.occursIn_eq equals, bare,
    split_property named valued.first]
  simp [property]

/-- A text whose wrapping leaves a property gives that property, if it is admissible. -/
theorem extract_of_unwrap (named : name.IsIdentifier) (valued : value.IsValue)
    (unwrapped : unwrap text = property name value) (existing : List Text) :
    extract text existing =
      if isAdmissible existing name (withoutCommas value) then
        property name (withoutCommas value) ++ [',']
      else [] := by
  have line : '\n' ∉ property name value :=
    not_mem_property named (by decide) (by decide) (valued.not_mem (by decide))
  have slash : '/' ∉ property name value :=
    not_mem_property named (by decide) (by decide) (valued.not_mem (by decide))
  unfold extract
  rw [unwrapped, show lines (property name value) = _ from splitOn_of_not_mem line, List.findSome?_singleton,
    Scan.dropComment_eq slash, trim_property named valued, ofLine_property named valued]
  split <;> rfl

end ReplyProperty

end InlineCompletion
