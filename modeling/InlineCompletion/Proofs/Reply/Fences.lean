import InlineCompletion.Proofs.Text.Trims
import InlineCompletion.Reply.Fence
import Mathlib.Data.List.Infix

/-!
What is taken out of a fence. Where the line of the opening fence ends behind its tag, that is the text up to the
next fence; where the code stands on that line, the word it begins with is read as the tag.
-/

namespace InlineCompletion

namespace Fence

open Text

def isGap (c : Char) : Bool :=
  c = ' ' || c = '\t'

/-- No fence stands in the text, and none can begin in it. -/
structure Unfenced (text : Text) : Prop where
  lacks : ¬ fence <:+: text
  last : text.getLast? ≠ some backtick

instance : DecidablePred Unfenced := fun text =>
  decidable_of_iff (¬ fence <:+: text ∧ text.getLast? ≠ some backtick)
    ⟨fun given => ⟨given.1, given.2⟩, fun given => ⟨given.lacks, given.last⟩⟩

/-- The text without the line break at its end, if there is one. -/
def dropFinalBreak (text : Text) : Text :=
  if text.getLast? = some '\n' then text.dropLast else text

/-- The code without the word it begins with and the blanks behind that. -/
def behindWord (code : Text) : Text :=
  (code.dropWhile isTagChar).dropWhile isGap

variable {front tag gap code text rest : Text} {c : Char}

/-! Texts without a fence. -/

theorem eq_backtick_of_mem_fence (member : c ∈ fence) : c = backtick := by
  simpa [fence] using member

theorem unfenced_of_not_mem (lacks : backtick ∉ text) : Unfenced text where
  lacks := fun inside => lacks (inside.subset (List.mem_cons_self ..))
  last := fun ends => lacks (List.mem_of_getLast? ends)

namespace Unfenced

theorem tail (unfenced : Unfenced (c :: text)) : Unfenced text where
  lacks := fun inside => unfenced.lacks (inside.trans (List.suffix_cons c text).isInfix)
  last := by
    intro ends
    refine unfenced.last ?_
    rw [List.getLast?_cons, ends]
    rfl

/-- Whatever follows, no fence begins in the text. -/
theorem startsWith_eq (unfenced : Unfenced (c :: text)) (rest : Text) :
    startsWith (c :: (text ++ rest)) fence = false := by
  refine Bool.eq_false_iff.mpr fun begins => ?_
  have begins : fence <+: (c :: text) ++ rest := List.isPrefixOf_iff_prefix.mp begins
  rcases List.prefix_or_prefix_of_prefix begins (List.prefix_append (c :: text) rest) with inside | part
  · exact unfenced.lacks inside.isInfix
  · -- A fence that reaches beyond the text leaves a backtick at its end.
    have last : (c :: text).getLast? = some ((c :: text).getLast (List.cons_ne_nil c text)) := List.getLast?_eq_some_getLast _
    have member := part.subset (List.getLast_mem (List.cons_ne_nil c text))
    exact unfenced.last (by rw [last, eq_backtick_of_mem_fence member])

end Unfenced

theorem startsWith_fence (rest : Text) : startsWith (fence ++ rest) fence = true :=
  List.isPrefixOf_iff_prefix.mpr (List.prefix_append fence rest)

/-! The code behind an opening fence. -/

theorem indexOf?_fence (unfenced : Unfenced front) (rest : Text) :
    indexOf? fence (front ++ (fence ++ rest)) = some front.length := by
  induction front with
  | nil => exact if_pos (startsWith_fence rest)
  | cons c front ih =>
    rw [List.cons_append, indexOf?, unfenced.startsWith_eq, ih unfenced.tail]
    rfl

theorem extract_append (unfenced : Unfenced front) (rest : Text) :
    extract (front ++ (fence ++ rest)) = codeAfter rest := by
  unfold extract
  rw [indexOf?_fence unfenced]
  dsimp only
  rw [← List.append_assoc, ← List.length_append, List.drop_left]

/-- The code goes on to the next fence. -/
theorem body_append (unfenced : Unfenced code) (rest : Text) : body (code ++ (fence ++ rest)) = code := by
  induction code with
  | nil => exact if_pos (Bool.or_eq_true_iff.mpr (.inl (startsWith_fence rest)))
  | cons c code ih =>
    have more : c :: (code ++ (fence ++ rest)) ≠ ['\n'] := by simp [fence]
    rw [List.cons_append, body, unfenced.startsWith_eq, ih unfenced.tail]
    simp [more]

theorem dropFinalBreak_cons (some : text ≠ []) (c : Char) : dropFinalBreak (c :: text) = c :: dropFinalBreak text := by
  unfold dropFinalBreak
  rw [List.getLast?_cons_of_ne_nil some, List.dropLast_cons_of_ne_nil some]
  split <;> rfl

theorem body_eq (unfenced : Unfenced code) : body code = dropFinalBreak code := by
  induction code with
  | nil => rfl
  | cons c code ih =>
    have begins := unfenced.startsWith_eq []
    rw [List.append_nil] at begins
    unfold body
    rw [begins, ih unfenced.tail]
    cases code with
    | nil => by_cases final : c = '\n' <;> simp [final, dropFinalBreak]
    | cons d code => simp [dropFinalBreak_cons]

/-! What stands between the opening fence and the code. -/

theorem isTagChar_of_isGap (blank : isGap c = true) : isTagChar c = false := by
  simp only [isGap, Bool.or_eq_true, decide_eq_true_eq] at blank
  rcases blank with rfl | rfl <;> decide +kernel

/-- Behind the tag and the line break the code begins. -/
theorem codeAfter_tagged (named : ∀ c ∈ tag, isTagChar c = true) (blank : ∀ c ∈ gap, isGap c = true) (rest : Text) :
    codeAfter (tag ++ (gap ++ '\n' :: rest)) = body rest := by
  have ends : ∀ c ∈ (gap ++ '\n' :: rest).head?, isTagChar c = false := by
    intro c member
    cases gap with
    | nil =>
      cases member
      decide +kernel
    | cons d gap =>
      cases member
      exact isTagChar_of_isGap (blank c (List.mem_cons_self ..))
  have breaks : ∀ c ∈ ('\n' :: rest).head?, isGap c = false := by
    intro c member
    cases member
    decide
  have gone : (gap ++ '\n' :: rest).dropWhile isGap = '\n' :: rest := dropWhile_append_eq blank breaks
  unfold codeAfter
  rw [dropWhile_append_eq named ends, show (fun c => decide (c = ' ') || decide (c = '\t')) = isGap from rfl, gone]
  rfl

theorem mem_of_mem_behindWord (member : c ∈ behindWord code) : c ∈ code :=
  ((List.dropWhile_suffix _).trans (List.dropWhile_suffix _)).subset member

/-- On the line of the opening fence the code begins behind its first word. -/
theorem codeAfter_untagged (plain : backtick ∉ code) (single : '\n' ∉ code) :
    codeAfter (code ++ fence) = behindWord code := by
  have ends : ∀ c ∈ fence.head?, isTagChar c = false := by rintro c ⟨⟩; rfl
  have stops : ∀ c ∈ fence.head?, isGap c = false := by rintro c ⟨⟩; rfl
  have whole : ((code ++ fence).dropWhile isTagChar).dropWhile isGap = behindWord code ++ fence := by
    rw [dropWhile_append_of_stops ends, dropWhile_append_of_stops stops, behindWord]
  have unbroken : dropLineBreak (behindWord code ++ fence) = behindWord code ++ fence := by
    cases left : behindWord code with
    | nil => rfl
    | cons c more =>
      have other : c ≠ '\n' := by
        rintro rfl
        exact single (mem_of_mem_behindWord (left ▸ List.mem_cons_self ..))
      simp [dropLineBreak, other]
  have unfenced : Unfenced (behindWord code) := unfenced_of_not_mem fun member => plain (mem_of_mem_behindWord member)
  calc codeAfter (code ++ fence)
    _ = body (dropLineBreak (behindWord code ++ fence)) := by rw [← whole]; rfl
    _ = body (behindWord code ++ (fence ++ [])) := by rw [unbroken, List.append_nil]
    _ = behindWord code := body_append unfenced []

theorem behindWord_eq_iff (trimmed : code.IsTrimmed) :
    behindWord code = code ↔ ∀ c ∈ code.head?, isTagChar c = false := by
  cases code with
  | nil => simp [behindWord]
  | cons c code =>
    have solid := trimmed.first c rfl
    constructor
    · rintro same d ⟨⟩
      by_contra word
      have shorter := congrArg List.length same
      have bound := (List.dropWhile_suffix (p := isGap) (l := code.dropWhile isTagChar)).length_le
      have bound' := (List.dropWhile_suffix (p := isTagChar) (l := code)).length_le
      rw [behindWord, List.dropWhile_cons_of_pos (by simpa using word), List.length_cons] at shorter
      omega
    · intro plain
      have gap : isGap c = false := by
        refine Bool.eq_false_iff.mpr fun blank => ?_
        simp only [isGap, Bool.or_eq_true, decide_eq_true_eq] at blank
        rcases blank with rfl | rfl <;> cases solid
      rw [behindWord, List.dropWhile_cons_of_neg (by simp [plain c rfl]), List.dropWhile_cons_of_neg (by simp [gap])]

/-! The code of a fence. -/

/-- A block between fences is taken out as it stands; without the closing fence it loses the line break at its end.
What stands before the opening fence and behind the closing one does not matter, nor does the tag. -/
theorem extract_block (before : Unfenced front) (named : ∀ c ∈ tag, isTagChar c = true)
    (blank : ∀ c ∈ gap, isGap c = true) (inside : Unfenced code) :
    (∀ rest, extract (front ++ (fence ++ (tag ++ (gap ++ '\n' :: (code ++ (fence ++ rest)))))) = code) ∧
      extract (front ++ (fence ++ (tag ++ (gap ++ '\n' :: code)))) = dropFinalBreak code := by
  refine ⟨fun rest => ?_, ?_⟩
  · rw [extract_append before, codeAfter_tagged named blank, body_append inside]
  · rw [extract_append before, codeAfter_tagged named blank, body_eq inside]

theorem extract_block_ticked :
    (Unfenced "a `b` ``\n" ∧ (∀ c ∈ ("c++" : Text), isTagChar c = true) ∧ (∀ c ∈ (" \t" : Text), isGap c = true) ∧
      Unfenced "``x\ny` \n") ∧
      extract (("a `b` ``\n" : Text) ++ (fence ++ (("c++" : Text) ++ ((" \t" : Text) ++
        '\n' :: (("``x\ny` \n" : Text) ++ (fence ++ ("`z" : Text))))))) = ("``x\ny` \n" : Text) ∧
      extract (("a `b` ``\n" : Text) ++ (fence ++ (("c++" : Text) ++ ((" \t" : Text) ++
        '\n' :: ("``x\ny` \n" : Text))))) = ("``x\ny` " : Text) := by
  have given : Unfenced "a `b` ``\n" ∧ (∀ c ∈ ("c++" : Text), isTagChar c = true) ∧
      (∀ c ∈ (" \t" : Text), isGap c = true) ∧ Unfenced "``x\ny` \n" :=
    ⟨by decide +kernel, forall_mem_of_all (by decide +kernel), forall_mem_of_all rfl, by decide +kernel⟩
  obtain ⟨closed, open'⟩ := extract_block given.1 given.2.1 given.2.2.1 given.2.2.2
  have final : dropFinalBreak "``x\ny` \n" = ("``x\ny` " : Text) := by decide +kernel
  exact ⟨given, closed "`z", open'.trans final⟩

/-- Code on the line of its fences loses the word it begins with, and is taken out as it stands exactly if it begins
with no character of a tag. -/
theorem extract_oneLine_eq_iff (plain : backtick ∉ code) (single : '\n' ∉ code) (trimmed : code.IsTrimmed) :
    extract (fence ++ (code ++ fence)) = behindWord code ∧
      (extract (fence ++ (code ++ fence)) = code ↔ ∀ c ∈ code.head?, isTagChar c = false) := by
  have before : Unfenced [] := unfenced_of_not_mem List.not_mem_nil
  have taken : extract (fence ++ (code ++ fence)) = behindWord code :=
    (extract_append before (code ++ fence)).trans (codeAfter_untagged plain single)
  exact ⟨taken, taken ▸ behindWord_eq_iff trimmed⟩

theorem extract_oneLine_return :
    (backtick ∉ ("return x" : Text) ∧ '\n' ∉ ("return x" : Text) ∧ IsTrimmed "return x") ∧
      extract (fence ++ (("return x" : Text) ++ fence)) = ("x" : Text) := by
  have plain : backtick ∉ ("return x" : Text) := by decide +kernel
  have single : '\n' ∉ ("return x" : Text) := by decide +kernel
  have trimmed : IsTrimmed "return x" := ⟨by rintro c ⟨⟩; rfl, by rintro c ⟨⟩; rfl⟩
  have word : behindWord "return x" = ("x" : Text) := by decide +kernel
  exact ⟨⟨plain, single, trimmed⟩, (extract_oneLine_eq_iff plain single trimmed).1.trans word⟩

end Fence

end InlineCompletion
