import InlineCompletion.Proofs.Reply.LongestEcho
import InlineCompletion.Proofs.Reply.Properties

/-!
A reply that repeats the whole line left of the cursor. Where it has nothing else in it that cleaning takes off,
exactly the rest of it is inserted, up to the white space at its end, whether the reply keeps the indentation of
the line or not.
-/

namespace InlineCompletion

namespace Text

variable {front tail : Text}

/-- The phrase occurs in the text, in any letter case. -/
def Mentions (text phrase : Text) : Prop :=
  ∃ front word behind, text = front ++ (word ++ behind) ∧
    List.Forall₂ (fun letter c => sameLetter letter c = true) phrase word

/-- Each letter of the phrase occurs. -/
theorem Mentions.exists_mem {text phrase : Text} (mentions : Mentions text phrase) {letter : Char}
    (member : letter ∈ phrase) : ∃ c ∈ text, sameLetter letter c = true := by
  obtain ⟨front, word, behind, rfl, same⟩ := mentions
  obtain ⟨c, there, given⟩ : ∃ c ∈ word, sameLetter letter c = true := by
    induction same with
    | nil => cases member
    | cons given _ ih =>
      rcases List.mem_cons.mp member with rfl | member
      · exact ⟨_, List.mem_cons_self .., given⟩
      · obtain ⟨c, there, given⟩ := ih member
        exact ⟨c, List.mem_cons_of_mem _ there, given⟩
  exact ⟨c, by simp [there], given⟩

end Text

namespace Wrapping

open Pattern Text

/-- What announces code is named in the text behind it. -/
theorem mentions_of_suggestedCode {cursor : Cursor} {found : Unit × Cursor}
    (member : found ∈ suggestedCode cursor) : Mentions cursor.after "suggested code" := by
  obtain ⟨first, start, member⟩ := (mem_bind _ _ _ _).mp member
  obtain ⟨second, lead, member⟩ := (mem_bind _ _ _ _).mp member
  obtain ⟨third, phrase, -⟩ := (mem_bind _ _ _ _).mp member
  obtain ⟨ends, there, rfl⟩ := List.mem_map.mp lead
  obtain ⟨front, -, before⟩ := reads_of_mem_runEnds there
  obtain ⟨word, same, behind⟩ := reads_literalBy phrase
  have here : first.2 = cursor := (holds_of_mem_place start).2
  rw [here] at before
  exact ⟨front, word, third.2.after, by rw [before, show ends.after = _ from behind], same⟩

theorem eraseFirst_suggestedCode {text : Text} (silent : ¬ Mentions text "suggested code") :
    eraseFirst suggestedCode text = text := by
  refine eraseFirst_eq_self fun front rest split => List.eq_nil_iff_forall_not_mem.mpr fun found member => ?_
  obtain ⟨lead, word, behind, whole, same⟩ := mentions_of_suggestedCode member
  have whole : rest = lead ++ (word ++ behind) := whole
  exact silent ⟨front ++ lead, word, behind, by rw [split, whole, List.append_assoc], same⟩

end Wrapping

namespace Reply

open Text

variable {raw typed : Text} {facts : Classification}

/-- A text with nothing in it that could be taken for a tag, a fence or an announcement. -/
structure IsPlain (text : Text) : Prop where
  untagged : '<' ∉ text
  unfenced : backtick ∉ text
  unannounced : ¬ Mentions text "suggested code"

theorem IsPlain.of_append {front text : Text} (plain : IsPlain (front ++ text)) : IsPlain text where
  untagged := fun member => plain.untagged (List.mem_append_right front member)
  unfenced := fun member => plain.unfenced (List.mem_append_right front member)
  unannounced := by
    rintro ⟨lead, word, behind, rfl, same⟩
    exact plain.unannounced ⟨front ++ lead, word, behind, by rw [List.append_assoc], same⟩

/-- Outside of literals and log calls a plain reply is trimmed and nothing else. -/
theorem clean_eq_trim (plain : IsPlain raw) (calm : facts.isVolatile = false) (typed : Text) (existing : List Text) :
    clean raw facts typed existing = trim raw := by
  simp only [Classification.isVolatile, Bool.or_eq_false_iff] at calm
  have untagged : ∀ c ∈ raw, decide (c = '<') = false := by
    intro c member
    simpa using fun same : c = '<' => plain.untagged (same ▸ member)
  have cleaned : cleanFor facts typed existing (unwrap facts raw) = trim raw := by
    simp [cleanFor, calm, cleanCode, unwrap, Reasoning.strip_eq untagged, Fence.extract_eq plain.unfenced,
      Wrapping.eraseFirst_suggestedCode plain.unannounced]
  unfold clean
  dsimp only
  rw [cleaned]
  split
  · next blank =>
    have none : trimLeft raw = [] := by simpa [trimLeft, allBlank] using blank
    simp [trim, none, trimRight, dropTrailing]
  · split
    · next blank => exact (trimRight_eq_nil blank).symm
    · rfl

end Reply

namespace Overlap

open Text

variable {body completion left rest typed : Text} {facts : Classification}

/-- The typed line from its first character on is the longest tail of all. -/
theorem remove_of_line_echo (visible : allBlank typed = false) (solid : trimLeft completion = completion)
    (echo : Echoes completion (trimLeft typed) left) : remove completion typed = left := by
  obtain ⟨first, more, line, starts⟩ := exists_cons_trimLeft visible
  obtain ⟨others, tails⟩ : ∃ others, tokenTails none typed = trimLeft typed :: others := by
    conv => enter [1, others, 1]; rw [← indentation_append_trimLeft typed]
    rw [line]
    exact tokenTails_indentation (List.all_eq_true.mp List.all_takeWhile) (by simp) starts more
  rw [remove_eq, solid, tails, List.findSome?_cons, dropEcho_eq_some_iff.mpr echo]
  rfl

/-- A text that goes on with another one is echoed by both when they are trimmed. -/
theorem echoes_trimRight_append (tail rest : Text) : Echoes (trimRight (tail ++ rest)) tail (trimRight rest) := by
  by_cases blank : allBlank rest = true
  · have none : trimRight rest = [] := by
      rw [← List.nil_append rest, trimRight_append_blank blank]
      rfl
    rw [trimRight_append_blank blank, none]
    by_cases whole : trimRight tail = tail
    · exact .whole (by rw [whole, List.append_nil])
    · refine .bare [] (fun begins => whole ?_) (by simp) (by simp) (by simp)
      exact (trimRight_isPrefix tail).eq_of_length_le begins.length_le
  · exact .whole (trimRight_append (Bool.eq_false_iff.mpr blank))

/-- A plain reply that repeats the line left of the cursor, with its indentation or without it, leaves what
follows the line, trimmed on the right. -/
theorem full_echo_undone (visible : allBlank typed = false) (plain : Reply.IsPlain (typed ++ rest))
    (calm : facts.isVolatile = false) (existing : List Text) :
    ∀ raw ∈ [typed ++ rest, trimLeft typed ++ rest],
      unique (Reply.clean raw facts typed existing) typed facts =
        if allBlank rest = true then none else some (trimRight rest) := by
  obtain ⟨first, more, line, solid⟩ := exists_cons_trimLeft visible
  have shorter : Reply.IsPlain (trimLeft typed ++ rest) := by
    rw [← indentation_append_trimLeft typed, List.append_assoc] at plain
    exact plain.of_append
  have cleaned : ∀ raw ∈ [typed ++ rest, trimLeft typed ++ rest],
      Reply.clean raw facts typed existing = trimRight (trimLeft typed ++ rest) := by
    intro raw member
    rcases List.mem_pair.mp member with rfl | rfl
    · rw [Reply.clean_eq_trim plain calm, trim, trimLeft_append visible]
    · rw [Reply.clean_eq_trim shorter calm, trim, trimLeft_eq (by simp [line, solid])]
  obtain ⟨behind, starts⟩ : ∃ behind, trimRight (trimLeft typed ++ rest) = first :: behind := by
    rw [line, List.cons_append]
    exact trimRight_cons solid (more ++ rest)
  have left : remove (trimRight (trimLeft typed ++ rest)) typed = trimRight rest :=
    remove_of_line_echo visible (trimLeft_eq (by simp [starts, solid])) (echoes_trimRight_append _ rest)
  intro raw member
  rw [cleaned raw member, unique_eq_of_calm calm, if_neg (by simp [starts, allBlank, solid]), left, someUnlessBlank,
    allBlank_trimRight]

/-- The declaration is repeated without its indentation, and a line of its own follows it. -/
theorem indented_echo_undone :
    allBlank ("  let sum = " : Text) = false ∧ Reply.IsPlain "  let sum = a +\n  b;\n" ∧
      unique (Reply.clean "let sum = a +\n  b;\n" {} "  let sum = " []) "  let sum = " {} = some "a +\n  b;" := by
  have plain : Reply.IsPlain ("  let sum = " ++ "a +\n  b;\n") :=
    { untagged := by decide
      unfenced := by decide
      unannounced := fun mentions => by
        obtain ⟨c, there, given⟩ := mentions.exists_mem (show 'g' ∈ _ by decide)
        have none : ∀ c ∈ ("  let sum = " ++ "a +\n  b;\n" : Text), sameLetter 'g' c = false :=
          forall_mem_of_all rfl
        simp [none c there] at given }
  have calm : ({} : Classification).isVolatile = false := rfl
  have undone := full_echo_undone (by decide) plain calm [] "let sum = a +\n  b;\n" (by decide)
  exact ⟨by decide, plain, undone.trans (by decide)⟩

end Overlap

end InlineCompletion
