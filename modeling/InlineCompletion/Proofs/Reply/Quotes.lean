import InlineCompletion.Proofs.Reply.Arguments

/-!
Quotes around a string out of a reply. What is taken off a text that does not begin with a quote is at its end: a
quote that closes a literal goes, and then the literal stays open, unless its opening quote goes as well because
nothing that can be seen stands between the two, or nothing but a quote where the line ends with one.
-/

namespace InlineCompletion

namespace Scan

open Text Standing

/-- Right behind the quote that opens a literal. -/
def Standing.opened (quote : Char) : Standing := ⟨some quote, false⟩

/-- The text is read in the literal of the quote and does not close it. -/
def StaysOpen (quote : Char) (body : Text) : Prop :=
  ∀ part rest, body = part ++ rest → ((opened quote).through part).quote = some quote

instance (quote : Char) (body : Text) : Decidable (StaysOpen quote body) :=
  decidable_of_iff (∀ part ∈ body.inits, ((opened quote).through part).quote = some quote)
    ⟨fun all part rest split => all part ((List.mem_inits ..).mpr ⟨rest, split.symm⟩), fun inside part member =>
      have ⟨rest, split⟩ := (List.mem_inits ..).mp member
      inside part rest split.symm⟩

/-- The text ends in a literal: a quote that opens it outside of all others, its body, and the quote closing it. -/
structure EndsInLiteral (text front : Text) (quote : Char) (body : Text) : Prop where
  split : text = front ++ quote :: (body ++ [quote])
  opens : isQuote quote = true
  free : outside.through front = outside
  inside : StaysOpen quote body

variable {text front body part rest : Text} {quote c : Char}

theorem read_outside_quote (opens : isQuote quote = true) : outside.read quote = opened quote := by
  have solid : quote ≠ backslash := by
    rintro rfl
    cases opens
  simp [Standing.read, outside, opened, opens, solid]

theorem StaysOpen.openQuote (inside : StaysOpen quote (part ++ rest)) (opens : isQuote quote = true)
    (free : outside.through front = outside) : openQuote (front ++ quote :: part) = some quote := by
  rw [openQuote_eq, through_append, free, through_cons, read_outside_quote opens]
  exact inside part rest rfl

/-- A literal that is open at the end of a text was opened somewhere, and not closed since. -/
theorem exists_opening (left : openQuote text = some quote) :
    ∃ front body, text = front ++ quote :: body ∧ outside.through front = outside ∧ StaysOpen quote body := by
  induction text using List.reverseRecOn with
  | nil => cases left
  | append_singleton text c ih =>
    have opens := isQuote_of_openQuote left
    by_cases before : Scan.openQuote text = some quote
    · obtain ⟨front, body, rfl, free, inside⟩ := ih before
      refine ⟨front, body ++ [c], by simp, free, fun part rest split => ?_⟩
      rcases List.eq_nil_or_concat rest with rfl | ⟨rest, last, rfl⟩
      · rw [List.append_assoc, List.cons_append, openQuote_eq, through_append, free, through_cons,
          read_outside_quote opens] at left
        rw [List.append_nil] at split
        exact split ▸ left
      · rw [List.concat_eq_append, ← List.append_assoc] at split
        exact inside part rest (List.append_inj' split rfl).1
    · -- Otherwise the last character is the quote that opens it.
      rw [openQuote_eq, through_append, through_cons, through_nil] at left
      rw [openQuote_eq] at before
      have here := (of_quote_read_eq_some left).resolve_left before
      refine ⟨text, [], by rw [here.2], here.1, fun part rest split => ?_⟩
      obtain ⟨rfl, -⟩ := List.append_eq_nil_iff.mp split.symm
      rfl

/-- What ends with a quote and leaves no literal open ends in a literal, or a backslash escapes that quote. -/
theorem endsInLiteral_or_escaped (closed : Scan.openQuote (text ++ [c]) = none) (given : isQuote c = true) :
    (∃ front body, EndsInLiteral (text ++ [c]) front c body) ∨
      Scan.openQuote text = none ∧ text.getLast? = some backslash := by
  rw [openQuote_eq, through_append, through_cons, through_nil] at closed
  rcases of_quote_read_eq_none given closed with escaped | closes
  · refine .inr ⟨by rw [openQuote_eq, escaped], ?_⟩
    rcases List.eq_nil_or_concat text with rfl | ⟨front, last, rfl⟩
    · cases escaped
    · have behind := congrArg Standing.escaped escaped
      rw [List.concat_eq_append, through_append, through_cons, through_nil, escaped_read, Bool.and_eq_true] at behind
      rw [List.concat_eq_append, List.getLast?_concat, of_decide_eq_true behind.2]
  · obtain ⟨front, body, rfl, free, inside⟩ := exists_opening (by rw [openQuote_eq, closes])
    exact .inl ⟨front, body, by simp, given, free, inside⟩

theorem EndsInLiteral.of_concat (ends : EndsInLiteral (text ++ [c]) front quote body) :
    text = front ++ quote :: body ∧ c = quote := by
  have split := ends.split
  rw [← List.cons_append, ← List.append_assoc] at split
  obtain ⟨same, last⟩ := List.append_inj' split rfl
  exact ⟨same, List.singleton_inj.mp last⟩

theorem EndsInLiteral.openQuote_front (ends : EndsInLiteral text front quote body) : Scan.openQuote front = none := by
  rw [openQuote_eq, ends.free]
  rfl

/-- Without its last quote the literal is open, however much of its body is left. -/
theorem EndsInLiteral.openQuote_part (ends : EndsInLiteral text front quote body) (isPart : part <+: body) :
    Scan.openQuote (front ++ quote :: part) = some quote := by
  obtain ⟨rest, rfl⟩ := isPart
  exact StaysOpen.openQuote ends.inside ends.opens ends.free

end Scan

namespace Wrapping

open Text

variable {text front part : Text} {c : Char}

theorem dropFirstQuote_eq (plain : ∀ c ∈ text.head?, isQuote c = false) : dropFirstQuote text = text := by
  cases text with
  | nil => rfl
  | cons c rest => simp [dropFirstQuote, plain c rfl]

theorem dropFirstQuote_cons (given : isQuote c = true) (rest : Text) : dropFirstQuote (c :: rest) = rest := by
  simp [dropFirstQuote, given]

theorem dropLastQuote_concat (given : isQuote c = true) (front : Text) : dropLastQuote (front ++ [c]) = front := by
  simp [dropLastQuote, endsInQuote, given]

theorem dropLastQuote_eq (plain : ∀ c ∈ text.getLast?, isQuote c = false) : dropLastQuote text = text := by
  rcases List.eq_nil_or_concat text with rfl | ⟨front, c, rfl⟩
  · rfl
  · rw [List.concat_eq_append] at plain ⊢
    have other := plain c (by rw [List.getLast?_concat]; rfl)
    simp [dropLastQuote, endsInQuote, other]

/-- A text ends with a quote, which is dropped, or it is left as it is. -/
theorem dropLastQuote_cases (text : Text) :
    (∃ front c, text = front ++ [c] ∧ isQuote c = true ∧ dropLastQuote text = front) ∨
      dropLastQuote text = text ∧ ∀ c ∈ text.getLast?, isQuote c = false := by
  by_cases plain : ∀ c ∈ text.getLast?, isQuote c = false
  · exact .inr ⟨dropLastQuote_eq plain, plain⟩
  · simp only [not_forall, Bool.not_eq_false] at plain
    obtain ⟨c, member, given⟩ := plain
    obtain ⟨front, rfl⟩ := List.getLast?_eq_some_iff.mp member
    exact .inl ⟨front, c, rfl, given, dropLastQuote_concat given front⟩

theorem dropLastQuote_isPrefix (text : Text) : dropLastQuote text <+: text := by
  rcases dropLastQuote_cases text with ⟨front, c, rfl, -, same⟩ | ⟨same, -⟩
  · rw [same]
    exact List.prefix_append front [c]
  · rw [same]

theorem dropLastQuote_append (some : part ≠ []) (front : Text) :
    dropLastQuote (front ++ part) = front ++ dropLastQuote part := by
  rcases dropLastQuote_cases part with ⟨others, c, rfl, given, same⟩ | ⟨same, plain⟩
  · rw [same, ← List.append_assoc, dropLastQuote_concat given]
  · rw [same]
    refine dropLastQuote_eq fun c member => plain c ?_
    rwa [List.getLast?_append_of_ne_nil front some] at member

theorem dropFirstQuote_isSuffix (text : Text) : dropFirstQuote text <:+ text := by
  unfold dropFirstQuote
  split
  · exact List.drop_suffix 1 text
  · exact List.suffix_refl text

theorem stripQuotes_isInfix (text : Text) : stripQuotes text <:+: text :=
  (dropLastQuote_isPrefix _).isInfix.trans ((dropFirstQuote_isSuffix _).isInfix.trans (trim_isInfix text))

theorem stripQuotes_eq (plain : ∀ c ∈ (trim text).head?, isQuote c = false) :
    stripQuotes text = dropLastQuote (trim text) := by
  rw [stripQuotes, dropFirstQuote_eq plain]

end Wrapping

namespace Reply

open Text Scan Wrapping

variable {text front body : Text} {quote : Char} {quoted : Bool}

/-- What is kept of a text without white space around it that does not begin with a quote, before the last trim. -/
def kept (text : Text) (quoted : Bool) : Text :=
  let left := dropLastQuote (trimRight (dropLastQuote text))
  if quoted then dropLastQuote left else left

/-- Of a literal at the end the opening quote is kept, because of what can be seen behind it; or nothing can be, and
the quote that ends the line takes the last one of another literal. -/
def LeavesOpen (front body : Text) (quoted : Bool) : Prop :=
  if allBlank body then quoted = true ∧ ∃ earlier quote inner, EndsInLiteral front earlier quote inner
  else ¬ (quoted = true ∧ ∃ c, isQuote c = true ∧ trimRight body = [c])

/-- The text ends in a literal that is left open. -/
def CutsLiteral (text : Text) (quoted : Bool) : Prop :=
  ∃ front quote body, EndsInLiteral text front quote body ∧ LeavesOpen front body quoted

theorem kept_isPrefix (text : Text) (quoted : Bool) : kept text quoted <+: text := by
  have left : dropLastQuote (trimRight (dropLastQuote text)) <+: text :=
    (dropLastQuote_isPrefix _).trans ((trimRight_isPrefix _).trans (dropLastQuote_isPrefix text))
  unfold kept
  dsimp only
  split
  · exact (dropLastQuote_isPrefix _).trans left
  · exact left

theorem openQuote_dropLastQuote_iff (closed : openQuote text = none) :
    openQuote (dropLastQuote text) = none ↔ ¬ ∃ front quote body, EndsInLiteral text front quote body := by
  rcases dropLastQuote_cases text with ⟨rest, c, rfl, given, same⟩ | ⟨same, plain⟩
  · rw [same]
    constructor
    · rintro none ⟨front, quote, body, ends⟩
      rw [ends.of_concat.1, ends.openQuote_part (List.prefix_refl body)] at none
      cases none
    · intro outer
      refine ((endsInLiteral_or_escaped closed given).resolve_left ?_).1
      rintro ⟨front, body, ends⟩
      exact outer ⟨front, c, body, ends⟩
  · rw [same]
    refine iff_of_true closed ?_
    rintro ⟨front, quote, body, ends⟩
    have last : text.getLast? = some quote := by
      rw [ends.split, ← List.cons_append, ← List.append_assoc, List.getLast?_concat]
    cases ends.opens.symm.trans (plain quote last)

/-- What ends with neither white space nor a quote is kept. -/
theorem kept_eq (solid : ∀ c ∈ (dropLastQuote text).getLast?, isBlank c = false)
    (plain : ∀ c ∈ (dropLastQuote text).getLast?, isQuote c = false) : kept text quoted = dropLastQuote text := by
  have whole : dropLastQuote (trimRight (dropLastQuote text)) = dropLastQuote text := by
    rw [trimRight, dropTrailing_eq solid, dropLastQuote_eq plain]
  unfold kept
  dsimp only
  rw [whole, dropLastQuote_eq plain, ite_self]

theorem openQuote_kept_of_no_literal (trimmed : text.IsTrimmed) (closed : openQuote text = none)
    (outer : ¬ ∃ front quote body, EndsInLiteral text front quote body) : openQuote (kept text quoted) = none := by
  have left := (openQuote_dropLastQuote_iff closed).mpr outer
  rcases dropLastQuote_cases text with ⟨rest, c, rfl, given, same⟩ | ⟨same, plain⟩
  · have escaped := ((endsInLiteral_or_escaped closed given).resolve_left
      fun ⟨front, body, ends⟩ => outer ⟨front, c, body, ends⟩).2
    rw [kept_eq, same]
    · exact same ▸ left
    all_goals
      intro d member
      rw [same, escaped] at member
      cases member
      rfl
  · rw [kept_eq (same.symm ▸ trimmed.last) (same.symm ▸ plain), same]
    exact closed

theorem openQuote_kept_of_literal (ends : EndsInLiteral text front quote body) :
    openQuote (kept text quoted) = none ↔ ¬ LeavesOpen front body quoted := by
  have solid := not_isBlank_of_isQuote ends.opens
  have first : dropLastQuote text = front ++ [quote] ++ body := by
    rw [ends.split, ← List.cons_append, ← List.append_assoc, dropLastQuote_concat ends.opens]
    simp
  unfold kept LeavesOpen
  dsimp only
  rw [first]
  by_cases blank : allBlank body = true
  · have second : dropLastQuote (trimRight (front ++ [quote] ++ body)) = front := by
      rw [trimRight_append_blank blank, trimRight, dropTrailing_eq (by simp [solid]), dropLastQuote_concat ends.opens]
    rw [second, if_pos blank]
    cases quoted with
    | true => simpa using openQuote_dropLastQuote_iff ends.openQuote_front
    | false => simpa using ends.openQuote_front
  · have visible := Bool.eq_false_iff.mpr blank
    have some : trimRight body ≠ [] := by
      intro none
      rw [← allBlank_trimRight, none] at visible
      cases visible
    have shorter : dropLastQuote (trimRight body) <+: body :=
      (dropLastQuote_isPrefix _).trans (trimRight_isPrefix body)
    have second : dropLastQuote (trimRight (front ++ [quote] ++ body)) =
        front ++ [quote] ++ dropLastQuote (trimRight body) := by
      rw [trimRight_append visible, dropLastQuote_append some]
    have left {part : Text} (isPart : part <+: body) : openQuote (front ++ [quote] ++ part) ≠ none := by
      rw [List.append_assoc, List.singleton_append, ends.openQuote_part isPart]
      exact Option.some_ne_none quote
    rw [second, if_neg blank, not_not]
    cases quoted with
    | false => exact iff_of_false (left shorter) fun both => Bool.false_ne_true both.1
    | true =>
      rcases dropLastQuote_cases (trimRight body) with ⟨rest, c, split, given, same⟩ | ⟨same, plain⟩
      · rw [same] at shorter ⊢
        cases rest with
        | nil =>
          rw [List.append_nil, if_pos rfl, dropLastQuote_concat ends.opens]
          exact iff_of_true ends.openQuote_front ⟨rfl, c, given, split⟩
        | cons d rest =>
          rw [if_pos rfl, dropLastQuote_append (List.cons_ne_nil d rest)]
          refine iff_of_false (left ((dropLastQuote_isPrefix _).trans shorter)) ?_
          rintro ⟨-, other, -, single⟩
          simp [split] at single
      · rw [same] at shorter ⊢
        rw [if_pos rfl, dropLastQuote_append some]
        refine iff_of_false (left ((dropLastQuote_isPrefix _).trans shorter)) ?_
        rintro ⟨-, other, given, single⟩
        cases given.symm.trans (plain other (by rw [single]; rfl))

/-! The whole. -/

theorem foldl_eraseFirst {phrases : List (Pattern Unit)}
    (silent : ∀ phrase ∈ phrases, Pattern.occursIn phrase text = false) :
    phrases.foldl (fun text phrase => Pattern.eraseFirst phrase text) text = text := by
  induction phrases with
  | nil => rfl
  | cons phrase more ih =>
    rw [List.foldl_cons, Pattern.eraseFirst_of_absent (silent phrase (List.mem_cons_self ..))]
    exact ih fun other member => silent other (List.mem_cons_of_mem _ member)

theorem cleanStringLiteral_eq
    (silent : ∀ phrase ∈ stringAnnouncements, Pattern.occursIn phrase (stripQuotes text) = false) (typed : Text) :
    cleanStringLiteral text typed =
      trim (if endsInQuote typed then dropLastQuote (stripQuotes (stripQuotes text))
        else stripQuotes (stripQuotes text)) := by
  rw [cleanStringLiteral, foldl_eraseFirst silent]

/-- Where no quote begins it, nothing is taken off the front of a string. -/
theorem stripQuotes_twice (plain : ∀ c ∈ (trim text).head?, isQuote c = false) (quoted : Bool) :
    (if quoted then dropLastQuote (stripQuotes (stripQuotes text)) else stripQuotes (stripQuotes text)) =
      kept (trim text) quoted := by
  have first := forall_head?_of_isPrefix (dropLastQuote_isPrefix (trim text)) (isTrimmed_trim text).first
  have same : trim (dropLastQuote (trim text)) = trimRight (dropLastQuote (trim text)) := by
    rw [trim, trimLeft_eq first]
  have second := forall_head?_of_isPrefix
    ((trimRight_isPrefix _).trans (dropLastQuote_isPrefix (trim text))) plain
  rw [stripQuotes_eq plain, stripQuotes_eq (same ▸ second), same]
  rfl

/-- A string out of a reply that announces nothing and leaves no literal open. Where a quote begins it, that is taken
off. Otherwise only its end is, and a literal is then left open exactly if one at its end is cut. -/
theorem literal_open_iff_cut (closed : openQuote text = none)
    (silent : ∀ phrase ∈ stringAnnouncements, Pattern.occursIn phrase (stripQuotes text) = false) (typed : Text) :
    ((∀ c ∈ (trim text).head?, isQuote c = false) →
        cleanStringLiteral text typed <+: trim text ∧
          (openQuote (cleanStringLiteral text typed) = none ↔ ¬ CutsLiteral (trim text) (endsInQuote typed))) ∧
      ∀ quote rest, trim text = quote :: rest → isQuote quote = true → cleanStringLiteral text typed <:+: rest := by
  rw [cleanStringLiteral_eq silent]
  constructor
  · intro plain
    have trimmed := isTrimmed_trim text
    have isPrefix := kept_isPrefix (trim text) (endsInQuote typed)
    have closed : openQuote (trim text) = none := (openQuote_trim text).trans closed
    rw [stripQuotes_twice plain, openQuote_trim]
    refine ⟨?_, ?_⟩
    · rw [trim, trimLeft_eq (forall_head?_of_isPrefix isPrefix trimmed.first)]
      exact (trimRight_isPrefix _).trans isPrefix
    · constructor
      · rintro none ⟨front, quote, body, ends, leaves⟩
        exact (openQuote_kept_of_literal ends).mp none leaves
      · intro whole
        by_cases inner : ∃ front quote body, EndsInLiteral (trim text) front quote body
        · obtain ⟨front, quote, body, ends⟩ := inner
          exact (openQuote_kept_of_literal ends).mpr fun leaves => whole ⟨front, quote, body, ends, leaves⟩
        · exact openQuote_kept_of_no_literal trimmed closed inner
  · intro quote rest begins given
    have first : stripQuotes text <:+: rest := by
      rw [stripQuotes, begins, dropFirstQuote_cons given]
      exact (dropLastQuote_isPrefix rest).isInfix
    have second := (stripQuotes_isInfix (stripQuotes text)).trans first
    refine (trim_isInfix _).trans ?_
    split
    · exact (dropLastQuote_isPrefix _).isInfix.trans second
    · exact second

/-- The quote that ends the reply closes a literal inside of it, and is dropped nevertheless. -/
theorem inner_literal_cut :
    openQuote "say \"hi\"" = none ∧ cleanStringLiteral "say \"hi\"" "x = " = "say \"hi" ∧
      openQuote (cleanStringLiteral "say \"hi\"" "x = ") ≠ none := by
  have closed : openQuote "say \"hi\"" = none := by decide +kernel
  have ends : EndsInLiteral (trim "say \"hi\"") "say ".toList doubleQuote "hi".toList :=
    { split := by decide +kernel
      opens := rfl
      free := by decide +kernel
      inside := by decide +kernel }
  have cut : CutsLiteral (trim "say \"hi\"") (endsInQuote "x = ") :=
    ⟨_, _, _, ends, by
      rw [LeavesOpen, if_neg (by decide +kernel)]
      exact fun both => absurd both.1 (by decide +kernel)⟩
  have plain : ∀ c ∈ (trim "say \"hi\"").head?, isQuote c = false := by
    rw [show (trim "say \"hi\"").head? = some 's' by decide +kernel]
    rintro c ⟨⟩
    rfl
  refine ⟨closed, by decide +kernel, fun none => ?_⟩
  exact ((literal_open_iff_cut closed (by decide +kernel) "x = ").1 plain).2.mp none cut

end Reply

end InlineCompletion
