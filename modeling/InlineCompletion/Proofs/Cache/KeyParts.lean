import Mathlib.Data.List.Basic
import InlineCompletion.Cache.Key
import InlineCompletion.Proofs.Document.Lines

/-!
What a key tells about the place it was derived for. Its parts are joined by colons that may as well
stand inside some of them, yet they can be read back: the digests have a fixed length, numbers hold
no colon, and the variable name follows from the line that the first digest covers.
-/

namespace InlineCompletion

namespace Text

theorem isDigit_of_mem_ofNat {n : Nat} {c : Char} (member : c ∈ ofNat n) : c.isDigit = true :=
  Nat.isDigit_of_mem_toDigits (by decide) (by decide) member

theorem digitChar_injective {m n : Nat} (small : m < 10) (small' : n < 10)
    (same : Nat.digitChar m = Nat.digitChar n) : m = n := by
  rw [← Nat.toNat_digitChar_sub_48_of_lt_ten small, same,
    Nat.toNat_digitChar_sub_48_of_lt_ten small']

/-- Digits are read back from the last one on. -/
theorem ofNat_injective {m n : Nat} (same : ofNat m = ofNat n) : m = n := by
  induction m using Nat.strongRecOn generalizing n with
  | ind m ih =>
    have digit (k : Nat) : k % 10 < 10 := Nat.mod_lt k (by decide)
    have several (k : Nat) (c c' : Char) : Nat.toDigits 10 (k / 10) ++ [c] ≠ [] ++ [c'] :=
      fun one => Nat.toDigits_ne_nil (List.append_inj' one rfl).1
    unfold ofNat at same ih
    rw [Nat.toDigits_eq_if (by decide), Nat.toDigits_eq_if (n := n) (by decide)] at same
    split at same <;> split at same
    · next small small' => exact digitChar_injective small small' (List.singleton_inj.mp same)
    · exact absurd same.symm (several n _ _)
    · exact absurd same (several m _ _)
    · next large _ =>
      obtain ⟨high, low⟩ := List.append_inj' same rfl
      have high := ih (m / 10) (by omega) high
      have low := digitChar_injective (digit m) (digit n) (List.singleton_inj.mp low)
      omega

theorem not_mem_ofInt {c : Char} (sign : c ≠ '-') (digit : c.isDigit = false) (n : Int) :
    c ∉ ofInt n := by
  intro member
  have inside : c ∈ ofNat n.natAbs := by
    unfold ofInt at member
    split at member
    · exact (List.mem_cons.mp member).resolve_left sign
    · exact member
  cases digit.symm.trans (isDigit_of_mem_ofNat inside)

theorem ofInt_injective {m n : Int} (same : ofInt m = ofInt n) : m = n := by
  have signed (k : Nat) : '-' ∉ ofNat k := fun member => by
    cases isDigit_of_mem_ofNat member
  unfold ofInt at same
  split at same
  · split at same
    · have size := ofNat_injective (List.cons.inj same).2
      omega
    · exact absurd (same ▸ List.mem_cons_self ..) (signed n.natAbs)
  · split at same
    · exact absurd (same ▸ List.mem_cons_self ..) (signed m.natAbs)
    · have size := ofNat_injective same
      omega

end Text

namespace CacheKey

/-- Where the key does not tell two places apart. -/
structure SamePlace (document : Document) (position : Position) (other : Document)
    (position' : Position) : Prop where
  at_cursor : position' = position
  above : other.linesAbove position' defaultWindow = document.linesAbove position defaultWindow
  nearby : neighbourhood other position' = neighbourhood document position
  existing : Text.join "," (Property.existing other position' defaultScanWindow) =
    Text.join "," (Property.existing document position defaultScanWindow)

/-- The short digests of two places differ where the texts that they cover do. -/
structure Discerning (digest : Text → Text) (document : Document) (position : Position)
    (other : Document) (position' : Position) : Prop where
  above : contextHash digest other position' defaultWindow =
      contextHash digest document position defaultWindow →
    Text.unlines (other.linesAbove position' defaultWindow) =
      Text.unlines (document.linesAbove position defaultWindow)
  nearby : fingerprint digest other position' = fingerprint digest document position →
    neighbourhood other position' = neighbourhood document position

theorem SamePlace.before {document other : Document} {position position' : Position}
    (same : SamePlace document position other position') :
    other.before position' = document.before position :=
  Document.before_eq_of_linesAbove_eq same.above

theorem Parts.text_eq (parts : Parts) : parts.text =
    parts.contextHash ++ ':' :: (parts.variableName ++ ':' ::
      ((if parts.inObjectLiteral then "true" else "false" : Text) ++ ':' ::
        (Text.ofInt parts.position.line ++ ':' :: (Text.ofInt parts.position.character ++ ':' ::
          (Text.join "," parts.existing ++ ':' :: parts.fingerprint))))) := by
  simp [text, pieces, Text.join]

theorem Parts.contextHash_eq {first second : Parts} (same : first.text = second.text)
    (long : first.contextHash.length = second.contextHash.length) :
    first.contextHash = second.contextHash := by
  rw [text_eq, text_eq] at same
  exact (List.append_inj same long).1

/-- Past the variable name the parts are separated. -/
theorem Parts.rest_eq {first second : Parts} (same : first.text = second.text)
    (long : first.contextHash.length = second.contextHash.length)
    (short : first.fingerprint.length = second.fingerprint.length)
    (assigned : first.variableName = second.variableName) :
    first.position = second.position ∧
      Text.join "," first.existing = Text.join "," second.existing ∧
      first.fingerprint = second.fingerprint := by
  have number (n : Int) : ':' ∉ Text.ofInt n := Text.not_mem_ofInt (by decide) (by decide) n
  have flag (b : Bool) : ':' ∉ (if b then "true" else "false" : Text) := by
    cases b <;> decide
  rw [text_eq, text_eq, assigned] at same
  obtain ⟨-, rest⟩ := List.append_inj same long
  have rest := List.append_cancel_left (List.cons.inj rest).2
  obtain ⟨-, rest⟩ := Text.append_cons_inj (flag _) (flag _) (List.cons.inj rest).2
  obtain ⟨line, rest⟩ := Text.append_cons_inj (number _) (number _) rest
  obtain ⟨character, rest⟩ := Text.append_cons_inj (number _) (number _) rest
  obtain ⟨existing, last⟩ := List.append_inj' rest (by simp [short])
  refine ⟨?_, existing, (List.cons.inj last).2⟩
  obtain ⟨_, _, _, ⟨line₁, character₁⟩, _, _⟩ := first
  obtain ⟨_, _, _, ⟨line₂, character₂⟩, _, _⟩ := second
  cases Text.ofInt_injective line
  cases Text.ofInt_injective character
  rfl

/-- Two places have the same key only where they are the same to it, as far as the digests can tell. -/
theorem samePlace_of_derive {digest : Text → Text} (long : ∀ text, 16 ≤ (digest text).length)
    {document other : Document} {position position' : Position} {facts facts' : Classification}
    {key : Text} (lined : document.IsLined) (lined' : other.IsLined)
    (discerning : Discerning digest document position other position')
    (derived : derive digest document position facts defaultWindow = .ok key)
    (derived' : derive digest other position' facts' defaultWindow = .ok key) :
    SamePlace document position other position' := by
  have text (document : Document) (position : Position) (facts : Classification)
      (derived : derive digest document position facts defaultWindow = .ok key) :
      (parts digest document position facts defaultWindow).text = key := by
    unfold derive at derived
    split at derived
    · cases derived
    · exact Except.ok.inj derived
  have same := (text other position' facts' derived').trans (text document position facts derived).symm
  have taken (n : Nat) (fits : n ≤ 16) (text : Text) : ((digest text).take n).length = n :=
    List.length_take_of_le (Nat.le_trans fits (long text))
  have hashes : (contextHash digest other position' defaultWindow).length =
      (contextHash digest document position defaultWindow).length :=
    (taken 16 (by decide) _).trans (taken 16 (by decide) _).symm
  have prints : (fingerprint digest other position').length =
      (fingerprint digest document position).length :=
    (taken 8 (by decide) _).trans (taken 8 (by decide) _).symm
  have covered := discerning.above (Parts.contextHash_eq same hashes)
  have above := Text.unlines_injective (other.linesAbove_ne_nil position' defaultWindow)
    (document.linesAbove_ne_nil position defaultWindow) (lined'.linesAbove position' defaultWindow)
    (lined.linesAbove position defaultWindow) covered
  have assigned : (parts digest other position' facts' defaultWindow).variableName =
      (parts digest document position facts defaultWindow).variableName := by
    show (Variable.assignedName (other.before position')).getD [] = _
    rw [Document.before_eq_of_linesAbove_eq above]
    rfl
  obtain ⟨at_cursor, existing, print⟩ := Parts.rest_eq same hashes prints assigned
  exact ⟨at_cursor, above, discerning.nearby print, existing⟩

end CacheKey

/-- What the key leaves open of a classification is told by the language and by the extension. -/
theorem classify_eq_of_before_eq {document other : Document} {position position' : Position}
    {window window' : Int} (same : other.before position' = document.before position)
    (calm : (classify document position window).isVolatile = false)
    (calm' : (classify other position' window').isVolatile = false) :
    classify other position' window' = { classify document position window with
      inComment := Comment.isComment (document.before position) other.language
      category := .ofExtension other.extension } := by
  simp only [Classification.isVolatile, Bool.or_eq_false_iff] at calm calm'
  obtain ⟨⟨object, log⟩, -⟩ := calm
  obtain ⟨⟨object', log'⟩, -⟩ := calm'
  simp only [classify] at object log object' log' ⊢
  rw [object, log, object', log', same]

end InlineCompletion
