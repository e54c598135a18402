import InlineCompletion.Proofs.Cache.KeyParts
import InlineCompletion.Proofs.Symbol.Keys
import InlineCompletion.Proofs.Text.FirstOccurrences

/-!
Every part of a key can be read back from it, whatever the short digests are, as long as they are hexadecimal: names
are made of word characters, so that neither the colons between the parts nor the commas between the properties stand
inside of a name. With digests that collide on no texts the lines in front of the cursor can be read back as well.
-/

namespace InlineCompletion

namespace Text

/-- Made of hexadecimal digits, in either letter case. -/
def IsHexadecimal (text : Text) : Prop :=
  ∀ c ∈ text, c.isDigit = true ∨ 'a' ≤ c ∧ c ≤ 'f' ∨ 'A' ≤ c ∧ c ≤ 'F'

theorem IsHexadecimal.not_mem_colon {text : Text} (hexadecimal : text.IsHexadecimal) : ':' ∉ text := by
  intro member
  rcases hexadecimal ':' member with digit | letter | letter
  · cases digit
  · exact absurd letter (by decide)
  · exact absurd letter (by decide)

theorem IsIdentifier.not_mem {name : Text} (named : name.IsIdentifier) {c : Char} (odd : isNameChar c = false) :
    c ∉ name := by
  intro member
  cases odd.symm.trans (named.all c member)

theorem IsIdentifier.ne_nil {name : Text} (named : name.IsIdentifier) : name ≠ [] := by
  rintro rfl
  exact named

end Text

namespace Variable

open Pattern Text

/-- What the pattern captures is made of word characters. -/
def CapturesWord (p : Pattern (Cursor × Cursor)) : Prop :=
  ∀ cursor, ∀ found ∈ p cursor, ∀ c ∈ found.1.1.between found.1.2, isWordChar c = true

theorem CapturesWord.bind {α : Type} {f : α → Pattern (Cursor × Cursor)} (next : ∀ a, CapturesWord (f a)) (p : Pattern α) :
    CapturesWord (p >>= f) := by
  intro cursor found member
  obtain ⟨first, -, rest⟩ := (mem_bind p f cursor found).mp member
  exact next first.1 first.2 found rest

theorem capturesWord_wordBefore (equals : Pattern Unit) : CapturesWord (wordBefore equals) := by
  intro cursor found member
  obtain ⟨word, read, rest⟩ := (mem_bind _ _ cursor found).mp member
  obtain ⟨_, -, rest⟩ := (mem_bind _ _ _ found).mp rest
  obtain ⟨_, -, rest⟩ := (mem_bind _ _ _ found).mp rest
  cases List.mem_singleton.mp rest
  obtain ⟨matched, captured⟩ := mem_of_mem_captured read
  obtain ⟨run, -, all, reads⟩ := reads_many1 matched
  rw [captured, reads.between_eq]
  exact all

theorem CapturesWord.of_captureIn {p : Pattern (Cursor × Cursor)} {line name : Text} (words : CapturesWord p)
    (captured : captureIn p line = some name) : ∀ c ∈ name, isWordChar c = true := by
  obtain ⟨found, search, rfl⟩ := Option.map_eq_some_iff.mp captured
  exact words _ _ (mem_of_searchFrom search).1

/-- An assigned name is made of word characters. -/
theorem isWordChar_of_mem_assignedName {line name : Text} (assigned : assignedName line = some name) :
    ∀ c ∈ name, isWordChar c = true := by
  have word := capturesWord_wordBefore (literal "=")
  simp only [assignedName, Option.or_eq_some_iff] at assigned
  rcases assigned with declared | ⟨-, member | ⟨-, plain⟩⟩
  · exact (CapturesWord.bind (fun _ => CapturesWord.bind (fun _ => word) _) _).of_captureIn declared
  · exact (CapturesWord.bind (fun _ => word) _).of_captureIn member
  · exact word.of_captureIn plain

end Variable

/-- The properties around the cursor have proper names. -/
theorem Property.isIdentifier_of_mem_existing {document : Document} {position : Position} {window : Int} {name : Text}
    (member : name ∈ existing document position window) : name.IsIdentifier := by
  unfold existing at member
  dsimp only at member
  split at member
  · cases member
  · next index column found =>
    have member := mem_firstOccurrences.mp member
    unfold keysAfter at member
    split at member
    · cases member
    · obtain ⟨line, -, captured⟩ := List.mem_flatMap.mp member
      rw [captures_key] at captured
      obtain ⟨k, written, rfl⟩ := List.mem_map.mp captured
      obtain ⟨spelling, _, _, _, -, -, rfl⟩ := mem_keysIn.mp written
      exact spelling.label.named

namespace CacheKey

/-- None of the parts can be taken for a separator or for several parts. -/
structure Parts.IsPlain (parts : Parts) : Prop where
  contextHash : ':' ∉ parts.contextHash
  variableName : ':' ∉ parts.variableName
  existing : ∀ name ∈ parts.existing, name.IsIdentifier
  fingerprint : ':' ∉ parts.fingerprint

variable {first second : Parts}

theorem Parts.IsPlain.not_mem (plain : first.IsPlain) : ∀ piece ∈ first.pieces, ':' ∉ piece := by
  have flag : ':' ∉ (if first.inObjectLiteral then "true" else "false" : Text) := by
    cases first.inObjectLiteral <;> decide
  have number (n : Int) : ':' ∉ Text.ofInt n := Text.not_mem_ofInt (by decide) (by decide) n
  have names : ':' ∉ Text.join "," first.existing :=
    Text.not_mem_join (by decide) fun name member => (plain.existing name member).not_mem (by decide)
  simp only [pieces, List.forall_mem_cons, List.not_mem_nil, false_implies, implies_true, and_true]
  exact ⟨plain.contextHash, plain.variableName, flag, number _, number _, names, plain.fingerprint⟩

/-- Plain parts can be read back from the key. -/
theorem Parts.eq_of_text_eq (plain : first.IsPlain) (plain' : second.IsPlain) (same : first.text = second.text) :
    first = second := by
  have read {parts : Parts} (plain : parts.IsPlain) : Text.splitOn ':' parts.text = parts.pieces :=
    Text.splitOn_join (List.cons_ne_nil _ _) plain.not_mem
  have flagged : ∀ b b' : Bool, (if b then "true" else "false" : Text) = (if b' then "true" else "false" : Text) →
      b = b' := by
    decide
  have pieces : first.pieces = second.pieces := by rw [← read plain, same, read plain']
  obtain ⟨hash, name, inObject, ⟨line, character⟩, existing, print⟩ := first
  obtain ⟨hash', name', inObject', ⟨line', character'⟩, existing', print'⟩ := second
  simp only [Parts.pieces, List.cons.injEq, and_true] at pieces
  obtain ⟨rfl, rfl, flag, lines, characters, names, rfl⟩ := pieces
  have solid {parts : Parts} (plain : parts.IsPlain) : ∀ name ∈ parts.existing, name ≠ [] ∧ ',' ∉ name :=
    fun name member => ⟨(plain.existing name member).ne_nil, (plain.existing name member).not_mem (by decide)⟩
  obtain rfl := Text.join_injective (solid plain) (solid plain') names
  obtain rfl := Text.ofInt_injective lines
  obtain rfl := Text.ofInt_injective characters
  obtain rfl := flagged inObject inObject' flag
  rfl

variable (ofLines ofCursor : Text → Text) (document other : Document) (position position' : Position)

/-- The parts of a key under any two short digests, one of the lines in front of the cursor and one of what stands next
to it. -/
def partsUnder (facts : Classification) (window : Int) : Parts where
  contextHash := ofLines (Text.unlines (document.linesAbove position window))
  variableName := (Variable.assignedName (document.before position)).getD []
  inObjectLiteral := facts.inObjectLiteral
  position
  existing := Property.existing document position defaultScanWindow
  fingerprint := ofCursor (neighbourhood document position)

def keyUnder (facts : Classification) (window : Int) : Except Failure Text :=
  if facts.isVolatile then .error volatileFailure
  else .ok (partsUnder ofLines ofCursor document position facts window).text

/-- The short digests of a key are the beginnings of a long one. -/
theorem derive_eq_keyUnder (digest : Text → Text) (facts : Classification) (window : Int) :
    derive digest document position facts window =
      keyUnder (fun text => (digest text).take 16) (fun text => (digest text).take 8) document position facts window :=
  rfl

variable {ofLines ofCursor document other position position'} {facts facts' : Classification}

theorem keyUnder_of_calm (calm : facts.isVolatile = false) (window : Int) :
    keyUnder ofLines ofCursor document position facts window =
      .ok (partsUnder ofLines ofCursor document position facts window).text := by
  rw [keyUnder, calm]
  rfl

theorem isPlain_partsUnder (hexadecimal : ∀ text, (ofLines text).IsHexadecimal)
    (hexadecimal' : ∀ text, (ofCursor text).IsHexadecimal) (window : Int) :
    (partsUnder ofLines ofCursor document position facts window).IsPlain where
  contextHash := (hexadecimal _).not_mem_colon
  variableName := by
    show ':' ∉ (Variable.assignedName (document.before position)).getD []
    cases assigned : Variable.assignedName (document.before position) with
    | none => exact List.not_mem_nil
    | some name =>
      intro member
      cases Variable.isWordChar_of_mem_assignedName assigned ':' member
  existing := fun _ member => Property.isIdentifier_of_mem_existing member
  fingerprint := (hexadecimal' _).not_mem_colon

/-- Every character as a one for each unit of its code point and a zero: a hexadecimal digest that keeps everything. -/
def unary (text : Text) : Text :=
  text.flatMap fun c => List.replicate c.toNat '1' ++ ['0']

theorem unary_cons (c : Char) (rest : Text) : unary (c :: rest) = List.replicate c.toNat '1' ++ '0' :: unary rest := by
  simp [unary]

theorem isHexadecimal_unary (text : Text) : (unary text).IsHexadecimal := by
  intro d member
  obtain ⟨c, -, inside⟩ := List.mem_flatMap.mp member
  rcases List.mem_append.mp inside with one | zero
  · rw [List.eq_of_mem_replicate one]
    exact .inl rfl
  · rw [List.mem_singleton.mp zero]
    exact .inl rfl

theorem unary_injective : Function.Injective unary := by
  intro text
  induction text with
  | nil =>
    rintro (_ | ⟨c, rest⟩) same
    · rfl
    · rw [unary_cons] at same
      exact absurd same (by simp [unary])
  | cons c rest ih =>
    rintro (_ | ⟨d, others⟩) same
    · rw [unary_cons] at same
      exact absurd same (by simp [unary])
    · rw [unary_cons, unary_cons] at same
      have ones (n : Nat) : '0' ∉ List.replicate n '1' := fun member => by cases List.eq_of_mem_replicate member
      obtain ⟨first, later⟩ := Text.append_cons_inj (ones _) (ones _) same
      have size := congrArg List.length first
      rw [List.length_replicate, List.length_replicate] at size
      rw [Char.toNat_inj.mp size, ih later]

/-- Two lines, and a third one that differs. -/
def totalPage (below : Text) : Document :=
  .ofText (Text.unlines ["a = 1;", "const total = ;", below]) "app.ts" none

end CacheKey

end InlineCompletion
