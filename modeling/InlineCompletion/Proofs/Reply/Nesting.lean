import InlineCompletion.Proofs.Reply.Lines
import InlineCompletion.Proofs.Text.Brackets

/-!
A property whose value has brackets. What takes the wrapping object off a text leaves the value as it is unless
it ends in a brace: this one is taken for the brace of an object around the property, and what it closed stays
open.
-/

namespace InlineCompletion

namespace Text

/-- White space, with a semicolon in it at most. -/
def IsBraceTail (tail : Text) : Prop :=
  ∃ gap mark more, tail = gap ++ (mark ++ more) ∧ (∀ c ∈ gap, isBlank c = true) ∧
    (mark = [] ∨ mark = [';']) ∧ ∀ c ∈ more, isBlank c = true

/-- A closing brace ends the text, but for a semicolon and white space. -/
def EndsInBrace (text : Text) : Prop :=
  ∃ body tail, text = body ++ closeBrace :: tail ∧ IsBraceTail tail

theorem IsBraceTail.not_mem {tail : Text} (ends : IsBraceTail tail) {c : Char} (solid : isBlank c = false)
    (other : c ≠ ';') : c ∉ tail := by
  obtain ⟨gap, mark, more, rfl, blank, marked, blank'⟩ := ends
  intro member
  rcases List.mem_append.mp member with there | member
  · cases solid.symm.trans (blank c there)
  rcases List.mem_append.mp member with there | there
  · rcases marked with rfl | rfl
    · cases there
    · exact other (List.mem_singleton.mp there)
  · cases solid.symm.trans (blank' c there)

/-- A value on one line with its brackets properly nested, none around white space only, and no comma at its
end. -/
structure IsWellFormed (value : Text) : Prop extends IsValue value where
  nested : value.IsNested
  dense : hasHollowPair value = false
  ended : value.getLast? ≠ some ','

end Text

namespace ReplyProperty

open Pattern Text

variable {name value text body gap tail : Text}

/-! The trailing brace. -/

/-- A match of the trailing brace goes to the end of the text. -/
theorem reads_trailingBrace {cursor : Cursor} {found : Unit × Cursor} (member : found ∈ trailingBrace cursor) :
    ∃ gap tail, cursor.after = gap ++ Text.closeBrace :: tail ∧ (∀ c ∈ gap, isBlank c = true) ∧
      IsBraceTail tail := by
  obtain ⟨⟨_, first⟩, spaced, member⟩ := (mem_bind _ _ _ _).mp member
  obtain ⟨⟨_, second⟩, brace, member⟩ := (mem_bind _ _ _ _).mp member
  obtain ⟨⟨_, third⟩, spaced', member⟩ := (mem_bind _ _ _ _).mp member
  obtain ⟨⟨_, fourth⟩, optional, member⟩ := (mem_bind _ _ _ _).mp member
  obtain ⟨⟨_, fifth⟩, spaced'', finish⟩ := (mem_bind _ _ _ _).mp member
  obtain ⟨gap, blank, before⟩ := reads_many spaced
  obtain ⟨c, same, closes⟩ := reads_char brace
  obtain ⟨more, blank', behind⟩ := reads_many spaced'
  obtain ⟨mark, marks, marked⟩ : ∃ mark : Text, third.Reads mark fourth ∧ (mark = [] ∨ mark = [';']) := by
    rcases mem_of_mem_optional optional with there | skipped
    · exact ⟨[';'], reads_literal there, .inr rfl⟩
    · obtain rfl : fourth = third := skipped
      exact ⟨[], rfl, .inl rfl⟩
  obtain ⟨last, blank'', onward⟩ := reads_many spaced''
  obtain rfl : c = Text.closeBrace := of_decide_eq_true same
  have rest : ∀ c ∈ fifth.after, isBlank c = true := by
    have ended := (holds_of_mem_place finish).1
    rcases Bool.or_eq_true_iff.mp ended with none | break'
    · intro c there
      rw [List.isEmpty_iff.mp none] at there
      cases there
    · intro c there
      rw [of_decide_eq_true break'] at there
      cases List.mem_singleton.mp there
      rfl
  have whole := ((before.trans closes).trans behind).trans (marks.trans onward)
  refine ⟨gap, more ++ (mark ++ (last ++ fifth.after)), ?_, blank, more, mark, last ++ fifth.after, rfl, blank',
    marked, fun c there => (List.mem_append.mp there).elim (blank'' c) (rest c)⟩
  rw [show cursor.after = _ from whole]
  simp

theorem prefers_trailingBrace (blank : ∀ c ∈ gap, isBlank c = true) (ends : IsBraceTail tail) (before : Text) :
    ∃ before', Prefers trailingBrace ⟨before, gap ++ Text.closeBrace :: tail⟩ () ⟨before', []⟩ := by
  have brace (before : Text) :
      Prefers closeBrace ⟨before, Text.closeBrace :: tail⟩ () ⟨Text.closeBrace :: before, tail⟩ :=
    prefers_char (decide_eq_true rfl) before tail
  have outer : Prefers blanks ⟨before, gap ++ Text.closeBrace :: tail⟩ ()
      ⟨gap.reverse ++ before, Text.closeBrace :: tail⟩ :=
    prefers_many blank (fun c member => by cases member; rfl) before
  have finish (before : Text) : Prefers atEnd ⟨before, []⟩ () ⟨before, []⟩ := prefers_place rfl
  have run {gap : Text} (blank : ∀ c ∈ gap, isBlank c = true) (before : Text) :
      Prefers blanks ⟨before, gap⟩ () ⟨gap.reverse ++ before, []⟩ := by
    have whole : Prefers blanks ⟨before, gap ++ []⟩ () ⟨gap.reverse ++ before, []⟩ :=
      prefers_many blank (fun c member => by cases member) before
    rwa [List.append_nil] at whole
  obtain ⟨more, mark, last, rfl, blank', rfl | rfl, blank''⟩ := ends
  · have skip (before : Text) : Prefers (optional (literal ";")) ⟨before, []⟩ () ⟨before, []⟩ :=
      prefers_optional rfl
    have all : ∀ c ∈ more ++ last, isBlank c = true := fun c member =>
      (List.mem_append.mp member).elim (blank' c) (blank'' c)
    have still (before : Text) : Prefers blanks ⟨before, []⟩ () ⟨before, []⟩ := rfl
    exact ⟨_, outer.bind <| (brace _).bind <| (run all _).bind <| (skip _).bind <| (still _).bind (finish _)⟩
  · have inner (before : Text) :
        Prefers blanks ⟨before, more ++ ';' :: last⟩ () ⟨more.reverse ++ before, ';' :: last⟩ :=
      prefers_many blank' (fun c member => by cases member; rfl) before
    have mark (before : Text) :
        Prefers (optional (literal ";")) ⟨before, ';' :: last⟩ () ⟨';' :: before, last⟩ :=
      (prefers_literal [';'] before last).orElse
    exact ⟨_, outer.bind <| (brace _).bind <| (inner _).bind <| (mark _).bind <| (run blank'' _).bind (finish _)⟩

/-- Where no brace ends the text, none is taken off. -/
theorem eraseAll_trailingBrace_eq_self (whole : ¬ EndsInBrace text) : eraseAll trailingBrace text = text := by
  refine replaceAll_eq_self (fun front rest split => ?_) _
  refine List.eq_nil_iff_forall_not_mem.mpr fun found member => ?_
  obtain ⟨gap, tail, same, -, ends⟩ := reads_trailingBrace member
  have same : rest = gap ++ Text.closeBrace :: tail := same
  exact whole ⟨front ++ gap, tail, by rw [split, same, List.append_assoc], ends⟩

/-- The last brace goes with the white space around it. -/
theorem eraseAll_trailingBrace (solid : ∀ c ∈ text.getLast?, isBlank c = false)
    (blank : ∀ c ∈ gap, isBlank c = true) (ends : IsBraceTail tail) :
    eraseAll trailingBrace (text ++ (gap ++ Text.closeBrace :: tail)) = text := by
  obtain ⟨before, given⟩ := prefers_trailingBrace blank ends text.reverse
  refine eraseAll_tail (by simp) (fun skipped rest split some => ?_) given fun _ => rfl
  refine List.eq_nil_iff_forall_not_mem.mpr fun found member => ?_
  obtain ⟨gap', tail', same, blank', ends'⟩ := reads_trailingBrace member
  have absent : Text.closeBrace ∉ gap' := fun there => by cases blank' _ there
  have same : gap' ++ Text.closeBrace :: tail' = rest ++ gap ++ Text.closeBrace :: tail := by
    rw [List.append_assoc]
    exact same.symm
  -- Behind the brace of a match stands no other, so that what stands before it is white space.
  obtain ⟨body, apart, spaced⟩ := exists_append_of_not_mem absent same
  cases body with
  | nil =>
    have last : rest.getLast some ∈ text.getLast? := by
      rw [split, List.getLast?_append_of_ne_nil _ some]
      exact List.getLast?_eq_some_getLast some
    have white : rest.getLast some ∈ gap' ++ [] :=
      spaced ▸ List.mem_append_left gap (List.getLast_mem some)
    rw [List.append_nil] at white
    cases (solid _ last).symm.trans (blank' _ white)
  | cons c more =>
    obtain ⟨-, later⟩ := List.cons.inj apart
    exact ends'.not_mem (c := Text.closeBrace) rfl (by decide)
      (later ▸ List.mem_append_right more (List.mem_cons_self ..))

/-! The other patterns. -/

theorem eraseAll_leadingBrace (named : name.IsIdentifier) (value : Text) :
    eraseAll leadingBrace (property name value) = property name value := by
  refine replaceAll_eq_self (fun front rest split => ?_) _
  refine List.eq_nil_iff_forall_not_mem.mpr fun found member => ?_
  obtain ⟨first, start, member⟩ := (mem_bind _ _ _ _).mp member
  obtain ⟨second, spaced, member⟩ := (mem_bind _ _ _ _).mp member
  obtain ⟨third, brace, -⟩ := (mem_bind _ _ _ _).mp member
  obtain ⟨none, here⟩ := holds_of_mem_place start
  obtain ⟨gap, blank, reads⟩ := reads_many spaced
  obtain ⟨c, same, opens⟩ := reads_char brace
  obtain rfl : c = Text.openBrace := of_decide_eq_true same
  have none : front = [] := by simpa using none
  have whole : property name value = gap ++ Text.openBrace :: third.2.after := by
    have onward := reads.trans opens
    rw [here] at onward
    rw [split, none, show rest = _ from onward]
    simp
  have starts := head?_property named value
  rw [whole] at starts
  cases gap with
  | nil => cases starts Text.openBrace rfl
  | cons d more =>
    have solid := not_isBlank_of_isNameChar (isNameChar_of_isNameStart (starts d rfl))
    cases solid.symm.trans (blank d (List.mem_cons_self ..))

theorem replaceAll_hollow (named : name.IsIdentifier) {left right : Char} (pair : (left, right) ∈ brackets)
    {removed : Text} (dense : hasHollowPair (value ++ removed) = false) (replacement : Match Unit → Text) :
    replaceAll (hollow left right) replacement (property name value) = property name value := by
  refine replaceAll_eq_self (fun front rest split => ?_) _
  refine List.eq_nil_iff_forall_not_mem.mpr fun found member => ?_
  obtain ⟨first, opened, member⟩ := (mem_bind _ _ _ _).mp member
  obtain ⟨second, spaced, closed⟩ := (mem_bind _ _ _ _).mp member
  obtain ⟨l, same, opens⟩ := reads_char opened
  obtain ⟨gap, some, blank, reads⟩ := reads_many1 spaced
  obtain ⟨r, same', closes⟩ := reads_char closed
  obtain rfl : l = left := of_decide_eq_true same
  obtain rfl : r = right := of_decide_eq_true same'
  have absent : l ∉ property name [] := by
    have odd : ∀ pair ∈ brackets, isNameChar pair.1 = false ∧ pair.1 ∉ [':', ' '] := by decide
    exact not_mem_property named (odd _ pair).1 (odd _ pair).2 List.not_mem_nil
  have whole : property name [] ++ value = front ++ l :: (gap ++ r :: found.2.after) := by
    rw [property_append, List.nil_append, split, show rest = _ from (opens.trans reads).trans closes]
    simp
  obtain ⟨body, given, -⟩ := exists_append_of_not_mem absent whole
  have hollow : hasHollowPair (body ++ l :: (gap ++ r :: (found.2.after ++ removed))) = true :=
    hasHollowPair_append pair some blank
  have same : value ++ removed = body ++ l :: (gap ++ r :: (found.2.after ++ removed)) := by
    rw [given]
    simp
  cases dense.symm.trans (same ▸ hollow)

/-- Only the trailing brace is taken off a property. -/
theorem unwrap_of_eraseAll (named : name.IsIdentifier) (valued : value.IsValue) {left removed : Text}
    (parts : value = left ++ removed) (dense : hasHollowPair value = false)
    (erased : eraseAll trailingBrace (property name value) = property name left) :
    unwrap (property name value) = property name left := by
  have equals : ∀ c ∈ property name value, decide (c = '=') = false := fun c member => by
    refine decide_eq_false ?_
    rintro rfl
    exact not_mem_property named (by decide) (by decide) (valued.not_mem (by decide)) member
  have quote : ∀ c ∈ property name left, decide (c = doubleQuote) = false := fun c member => by
    refine decide_eq_false ?_
    rintro rfl
    have absent : doubleQuote ∉ left := fun there =>
      valued.not_mem (by decide) (parts ▸ List.mem_append_left removed there)
    exact not_mem_property named (by decide) (by decide) absent member
  have even {l r : Char} (pair : (l, r) ∈ brackets) (replacement : Match Unit → Text) :=
    replaceAll_hollow named pair (parts ▸ dense) replacement
  unfold unwrap
  dsimp only
  rw [show eraseAll declarationOpen _ = _ from needs_declarationOpen.replaceAll_eq equals _,
    show eraseAll assignmentOpen _ = _ from needs_assignmentOpen.replaceAll_eq equals _,
    eraseAll_leadingBrace named, erased, needs_quotedColon.replaceAll_eq quote,
    even (by decide), even (by decide), even (by decide)]

/-! The property. -/

theorem count_property (named : name.IsIdentifier) {c : Char} (odd : isNameChar c = false)
    (apart : c ∉ [':', ' ', ',']) (value : Text) : (property name value ++ [',']).count c = value.count c := by
  have start : (property name []).count c = 0 := by
    refine List.count_eq_zero.mpr (not_mem_property named odd ?_ List.not_mem_nil)
    exact fun member => apart (List.mem_append_left [','] member)
  have comma : [','].count c = 0 :=
    List.count_eq_zero.mpr fun member => apart (List.mem_append_right [':', ' '] member)
  have whole := property_append name [] value
  rw [List.nil_append] at whole
  rw [← whole, List.count_append, List.count_append, start, comma, Nat.zero_add, Nat.add_zero]

theorem count_withoutCommas {c : Char} (solid : isBlank c = false) (other : c ≠ ',') (given : Text) :
    (withoutCommas given).count c = given.count c := by
  unfold withoutCommas trimRight
  rw [count_dropTrailing solid, count_dropTrailing (decide_eq_false other), count_dropTrailing solid]

/-- No brace ends a property that does not end its value. -/
theorem endsInBrace_property (named : name.IsIdentifier) :
    EndsInBrace (property name value) → EndsInBrace value := by
  rintro ⟨body, tail, same, ends⟩
  have absent : Text.closeBrace ∉ property name [] :=
    not_mem_property named (by decide) (by decide) List.not_mem_nil
  have whole : property name [] ++ value = body ++ Text.closeBrace :: tail :=
    (property_append name [] value).trans same
  obtain ⟨body, parts, -⟩ := exists_append_of_not_mem absent whole
  exact ⟨body, tail, parts, ends⟩

/-- A well-formed property is extracted as it is where no brace ends its value, unless its name is there
already. -/
theorem extract_of_not_endsInBrace (named : name.IsIdentifier) (formed : value.IsWellFormed)
    (existing : List Text) (whole : ¬ EndsInBrace value) :
    extract (property name value) existing =
      if existing.contains name then [] else property name value ++ [','] := by
  have erased : eraseAll trailingBrace (property name value) = property name value :=
    eraseAll_trailingBrace_eq_self fun ends => whole (endsInBrace_property named ends)
  have bare : withoutCommas value = value :=
    withoutCommas_eq fun c member => ⟨formed.last c member, fun same => formed.ended (same ▸ member)⟩
  have closed : ∀ c ∈ value.getLast?, c ∉ [Text.openBrace, '[', '('] := fun c member opens => by
    have all : ∀ c ∈ [Text.openBrace, '[', '('], closer? c ≠ none := forall_mem_of_all rfl
    exact all c opens (closer?_getLast? formed.nested c member)
  have unwrapped := unwrap_of_eraseAll named formed.toIsValue (List.append_nil value).symm formed.dense erased
  have admissible : isAdmissible existing name value = true ↔ name ∉ existing :=
    isAdmissible_iff.trans ⟨fun given => given.2.2, fun fresh => ⟨formed.filled, closed, fresh⟩⟩
  rw [extract_of_unwrap named formed.toIsValue unwrapped, bare]
  by_cases there : name ∈ existing
  · rw [if_pos (List.contains_iff_mem.mpr there), if_neg fun given => admissible.mp given there]
  · rw [if_neg fun given => there (List.contains_iff_mem.mp given), if_pos (admissible.mpr there)]

/-- Where a brace ends the value, the one that it closes stays open. -/
theorem extract_of_endsInBrace (named : name.IsIdentifier) (formed : value.IsWellFormed)
    (existing : List Text) (ends : EndsInBrace value) :
    extract (property name value) existing = [] ∨
      (extract (property name value) existing).count Text.openBrace =
        (extract (property name value) existing).count Text.closeBrace + 1 := by
  obtain ⟨body, tail, parts, ends⟩ := ends
  obtain ⟨gap, split, blank⟩ := dropTrailing_append isBlank body
  have whole : value = trimRight body ++ (gap ++ Text.closeBrace :: tail) := by
    rw [parts, ← List.append_assoc]
    exact congrArg (· ++ Text.closeBrace :: tail) split
  have begun : trimRight body ≠ [] := by
    intro none
    rw [none, List.nil_append] at whole
    cases gap with
    | nil => cases formed.nested.head? Text.closeBrace (by rw [whole]; rfl)
    | cons c more =>
      have solid := formed.first c (by rw [whole]; rfl)
      cases solid.symm.trans (blank c (List.mem_cons_self ..))
  have valued : IsValue (trimRight body) :=
    { filled := begun
      first := fun c member => formed.first c (by rw [whole, List.head?_append, Option.mem_def.mp member]; rfl)
      last := getLast?_dropTrailing isBlank body
      plain := fun c member => formed.plain c (whole ▸ List.mem_append_left _ member) }
  have erased : eraseAll trailingBrace (property name value) = property name (trimRight body) := by
    rw [whole, ← property_append]
    refine eraseAll_trailingBrace (fun c member => ?_) blank ends
    rw [getLast?_property begun] at member
    exact valued.last c member
  have outer {c : Char} (solid : isBlank c = false) (other : c ≠ ';') : gap.count c = 0 ∧ tail.count c = 0 := by
    refine ⟨List.count_eq_zero.mpr fun member => ?_, List.count_eq_zero.mpr (ends.not_mem solid other)⟩
    cases solid.symm.trans (blank c member)
  have opened : (trimRight body).count Text.openBrace = value.count Text.openBrace := by
    obtain ⟨before, behind⟩ := outer (c := Text.openBrace) rfl (by decide)
    rw [whole, List.count_append, List.count_append, List.count_cons_of_ne (by decide), before, behind]
    rfl
  have closed : (trimRight body).count Text.closeBrace + 1 = value.count Text.closeBrace := by
    obtain ⟨before, behind⟩ := outer (c := Text.closeBrace) rfl (by decide)
    rw [whole, List.count_append, List.count_append, List.count_cons_self, before, behind]
  rw [extract_of_unwrap named valued (unwrap_of_eraseAll named formed.toIsValue whole formed.dense erased)]
  split
  · right
    rw [count_property named (by decide) (by decide), count_property named (by decide) (by decide),
      count_withoutCommas rfl (by decide), count_withoutCommas rfl (by decide), opened, closed]
    exact formed.nested.count (by decide)
  · exact .inl rfl

/-- A new property with a well-formed value is extracted as it is, with a comma, exactly where no brace ends the
value. Where one does, nothing is extracted, or the brackets of what is are nested no more. -/
theorem extract_wellFormed (named : name.IsIdentifier) (formed : value.IsWellFormed) {existing : List Text}
    (fresh : name ∉ existing) :
    (extract (property name value) existing = property name value ++ [','] ↔ ¬ EndsInBrace value) ∧
      (EndsInBrace value → extract (property name value) existing = [] ∨
        ¬ (extract (property name value) existing).IsNested) := by
  refine ⟨⟨fun same ends => ?_, fun whole => ?_⟩, fun ends => ?_⟩
  · have even : value.count Text.openBrace = value.count Text.closeBrace := formed.nested.count (by decide)
    rcases extract_of_endsInBrace named formed existing ends with none | uneven
    · rw [none] at same
      simp at same
    · rw [same, count_property named (by decide) (by decide), count_property named (by decide) (by decide),
        even] at uneven
      omega
  · rw [extract_of_not_endsInBrace named formed existing whole, if_neg (by simpa using fresh)]
  · refine (extract_of_endsInBrace named formed existing ends).imp_right fun uneven nested => ?_
    have even : (extract (property name value) existing).count Text.openBrace =
        (extract (property name value) existing).count Text.closeBrace := nested.count (by decide)
    omega

/-- The brace of the value is taken for that of an object, and the one it closed stays open. -/
theorem extract_wellFormed_tags :
    extract "tags: \x7ba: 1\x7d".toList [] = "tags: \x7ba: 1,".toList ∧
      ¬ (extract "tags: \x7ba: 1\x7d".toList []).IsNested := by
  have formed : IsWellFormed "\x7ba: 1\x7d".toList :=
    { filled := by decide
      first := fun c member => by cases member; rfl
      last := fun c member => by cases member; rfl
      plain := forall_mem_of_all rfl
      nested := by decide
      dense := by decide
      ended := by decide }
  have ends : EndsInBrace "\x7ba: 1\x7d".toList :=
    ⟨"\x7ba: 1".toList, [], rfl, [], [], [], rfl, forall_mem_of_all rfl, .inl rfl, forall_mem_of_all rfl⟩
  have named : IsIdentifier "tags".toList := by decide
  have given : extract "tags: \x7ba: 1\x7d".toList [] = "tags: \x7ba: 1,".toList := by decide +kernel
  refine ⟨given, ((extract_wellFormed named formed List.not_mem_nil).2 ends).resolve_left fun none => ?_⟩
  cases given.symm.trans none

end ReplyProperty

end InlineCompletion
