import Mathlib.Data.List.Basic
import InlineCompletion.Proofs.Reply.Overlaps
import InlineCompletion.Proofs.Text.Trims

/-!
What of a completion is typed already: the longest tail of the typed text that begins at a token and that the
completion begins with, be it without the white space at the end of the tail. Where the completion lacks that
white space, the cut may fall inside one of its words.
-/

namespace InlineCompletion

/-- A list in which what comes first has the greater measure is searched from the greatest on. -/
theorem findSome?_of_descending {α β : Type} {f : α → Option β} {size : α → Nat} {xs : List α}
    (descending : xs.Pairwise fun x y => size y < size x) {b : β} :
    xs.findSome? f = some b ↔ ∃ x ∈ xs, f x = some b ∧ ∀ y ∈ xs, size x < size y → f y = none := by
  induction xs with
  | nil => simp
  | cons first rest ih =>
    obtain ⟨below, descending⟩ := List.pairwise_cons.mp descending
    rw [List.findSome?_cons]
    cases found : f first with
    | some a =>
      constructor
      · intro same
        refine ⟨first, List.mem_cons_self .., found.trans same, fun y member larger => ?_⟩
        rcases List.mem_cons.mp member with rfl | member
        · omega
        · have smaller := below y member
          omega
      · rintro ⟨x, member, given, others⟩
        rcases List.mem_cons.mp member with rfl | member
        · exact found.symm.trans given
        · have none := others first (List.mem_cons_self ..) (below x member)
          simp [found] at none
    | none =>
      simp only [ih descending, List.mem_cons]
      constructor
      · rintro ⟨x, member, given, others⟩
        refine ⟨x, .inr member, given, ?_⟩
        rintro y (rfl | there) larger
        · exact found
        · exact others y there larger
      · rintro ⟨x, rfl | member, given, others⟩
        · simp [found] at given
        · exact ⟨x, member, given, fun y there => others y (.inr there)⟩

namespace Overlap

open Text

variable {body completion kept left removed rest tail text typed : Text} {previous : Option Char}

/-! The tails. -/

/-- The tail begins at a token: neither with white space nor inside a word. -/
def IsTokenTail (typed tail : Text) : Prop :=
  ∃ front first rest, typed = front ++ tail ∧ tail = first :: rest ∧ isBlank first = false ∧
    ¬ (isNameChar first = true ∧ ∃ last ∈ front.getLast?, isNameChar last = true)

theorem IsTokenTail.visible (token : IsTokenTail typed tail) : allBlank tail = false := by
  obtain ⟨-, first, rest, -, rfl, solid, -⟩ := token
  simp [allBlank, solid]

theorem IsTokenTail.getLast? (token : IsTokenTail typed tail) : tail.getLast? = typed.getLast? := by
  obtain ⟨front, first, rest, rfl, rfl, -⟩ := token
  rw [List.getLast?_append_of_ne_nil _ (List.cons_ne_nil first rest)]

theorem IsTokenTail.trimRight_ne_nil (token : IsTokenTail typed tail) : trimRight tail ≠ [] := by
  intro none
  have visible := allBlank_trimRight tail
  rw [none, token.visible] at visible
  cases visible

/-- All tails end like the typed text. -/
theorem IsTokenTail.getLast?_trimRight (token : IsTokenTail typed tail) :
    (trimRight tail).getLast? = (trimRight typed).getLast? := by
  have visible := token.visible
  have filled := token.trimRight_ne_nil
  obtain ⟨front, -, -, rfl, -⟩ := token
  rw [Text.trimRight_append visible, List.getLast?_append_of_ne_nil _ filled]

theorem mem_tokenTails :
    tail ∈ tokenTails previous text ↔ ∃ front first rest, text = front ++ tail ∧ tail = first :: rest ∧
      isBoundary (front.getLast?.or previous) first = true := by
  induction text generalizing previous with
  | nil =>
    simp only [tokenTails, List.not_mem_nil, false_iff]
    rintro ⟨front, first, rest, none, rfl, -⟩
    simp at none
  | cons c more ih =>
    have split : (∃ front first rest, c :: more = front ++ tail ∧ tail = first :: rest ∧
          isBoundary (front.getLast?.or previous) first = true) ↔
        (tail = c :: more ∧ isBoundary previous c = true) ∨
        ∃ front first rest, more = front ++ tail ∧ tail = first :: rest ∧
          isBoundary (front.getLast?.or (some c)) first = true := by
      constructor
      · rintro ⟨front, first, rest, whole, rfl, starts⟩
        cases front with
        | nil =>
          cases whole
          exact .inl ⟨rfl, starts⟩
        | cons d front =>
          cases whole
          refine .inr ⟨front, first, rest, rfl, rfl, ?_⟩
          simpa [List.getLast?_cons, Option.or_some] using starts
      · rintro (⟨rfl, starts⟩ | ⟨front, first, rest, rfl, rfl, starts⟩)
        · exact ⟨[], c, more, rfl, rfl, starts⟩
        · refine ⟨c :: front, first, rest, rfl, rfl, ?_⟩
          simpa [List.getLast?_cons, Option.or_some] using starts
    rw [split, ← ih, tokenTails]
    by_cases starts : isBoundary previous c = true <;> simp [starts]

theorem mem_tokenTails_none : tail ∈ tokenTails none typed ↔ IsTokenTail typed tail := by
  have starts (front : Text) (first : Char) : isBoundary (front.getLast?.or none) first = true ↔
      isBlank first = false ∧ ¬ (isNameChar first = true ∧ ∃ last ∈ front.getLast?, isNameChar last = true) := by
    cases front.getLast? with
    | none => simp [isBoundary]
    | some last => by_cases named : isNameChar first = true <;> simp [isBoundary, named]
  simp only [mem_tokenTails, starts, IsTokenTail]

theorem length_le_of_mem_tokenTails (member : tail ∈ tokenTails previous text) : tail.length ≤ text.length := by
  obtain ⟨front, -, -, rfl, -⟩ := mem_tokenTails.mp member
  simp

/-- The longest tail comes first. -/
theorem pairwise_tokenTails (previous : Option Char) (text : Text) :
    (tokenTails previous text).Pairwise fun longer shorter => shorter.length < longer.length := by
  induction text generalizing previous with
  | nil => simp [tokenTails]
  | cons c rest ih =>
    unfold tokenTails
    split
    · refine List.pairwise_cons.mpr ⟨fun tail member => ?_, ih (some c)⟩
      have bound := length_le_of_mem_tokenTails member
      simp only [List.length_cons]
      omega
    · exact ih (some c)

/-! The echo. -/

/-- What is left of a body that begins with a tail. Where the tail has white space at its end that the body
lacks, other spaces and tabs are passed over. -/
inductive Echoes (body tail left : Text) : Prop
  | whole (same : body = tail ++ left)
  | bare (gap : Text) (lacking : ¬ tail <+: body) (same : body = trimRight tail ++ gap ++ left)
      (spaces : ∀ c ∈ gap, c = ' ' ∨ c = '\t') (behind : ∀ c ∈ left.head?, ¬ (c = ' ' ∨ c = '\t'))

theorem dropEcho_eq_none_iff : dropEcho body tail = none ↔ ¬ trimRight tail <+: body := by
  have shorter : tail <+: body → trimRight tail <+: body := (trimRight_isPrefix tail).trans
  by_cases same : trimRight tail = tail <;> by_cases begins : tail <+: body <;>
    simp_all [dropEcho, startsWith]

theorem dropEcho_eq_some_iff : dropEcho body tail = some left ↔ Echoes body tail left := by
  unfold dropEcho startsWith
  dsimp only
  constructor
  · intro given
    split at given
    · next begins =>
      obtain ⟨behind, rfl⟩ := List.isPrefixOf_iff_prefix.mp begins
      cases given
      exact .whole (by simp)
    · next lacking =>
      rw [List.isPrefixOf_iff_prefix] at lacking
      split at given
      · next begins =>
        obtain ⟨behind, whole⟩ := List.isPrefixOf_iff_prefix.mp (Bool.and_eq_true_iff.mp begins).2
        subst whole
        cases given
        refine .bare (behind.takeWhile fun c => c = ' ' || c = '\t') lacking (by simp) (fun c member => ?_)
          fun c member => ?_
        · simpa using List.mem_takeWhile_imp member
        · have stops := List.head?_dropWhile_not (fun c => c = ' ' || c = '\t') behind
          simp_all
      · cases given
  · rintro (rfl | ⟨gap, lacking, same, spaces, behind⟩)
    · simp
    · have begins : trimRight tail <+: body := ⟨gap ++ left, by rw [same, List.append_assoc]⟩
      have apart : trimRight tail ≠ tail := fun whole => lacking (whole ▸ begins)
      have skipped : (gap ++ left).dropWhile (fun c => c = ' ' || c = '\t') = left :=
        dropWhile_append_eq (by simpa using spaces) (by simpa using behind)
      have behind : body.drop (trimRight tail).length = gap ++ left := by simp [same]
      simp [apart, lacking, begins, behind, skipped]

/-- The longest tail that the body begins with, the white space at its end apart. -/
structure IsLongestEcho (typed body tail : Text) : Prop where
  token : IsTokenTail typed tail
  echoed : trimRight tail <+: body
  longest : ∀ longer, IsTokenTail typed longer → tail.length < longer.length → ¬ trimRight longer <+: body

theorem Echoes.begins (echo : Echoes body tail left) : trimRight tail <+: body := by
  have given := dropEcho_eq_some_iff.mpr echo
  by_contra none
  simp [dropEcho_eq_none_iff.mpr none] at given

theorem findSome?_tokenTails :
    (tokenTails none typed).findSome? (dropEcho body) = some left ↔
      ∃ tail, IsLongestEcho typed body tail ∧ Echoes body tail left := by
  rw [findSome?_of_descending (pairwise_tokenTails none typed)]
  simp only [mem_tokenTails_none, dropEcho_eq_some_iff, dropEcho_eq_none_iff]
  constructor
  · rintro ⟨tail, token, echo, longest⟩
    exact ⟨tail, ⟨token, echo.begins, longest⟩, echo⟩
  · rintro ⟨tail, ⟨token, -, longest⟩, echo⟩
    exact ⟨tail, token, echo, longest⟩

theorem findSome?_tokenTails_eq_none :
    (tokenTails none typed).findSome? (dropEcho body) = none ↔
      ∀ tail, IsTokenTail typed tail → ¬ trimRight tail <+: body := by
  simp only [List.findSome?_eq_none_iff, mem_tokenTails_none, dropEcho_eq_none_iff]

/-! What is removed. -/

theorem remove_eq (completion typed : Text) :
    remove completion typed =
      ((tokenTails none typed).findSome? (dropEcho (trimLeft completion))).getD completion := by
  unfold remove
  split
  · next blank =>
    have none : ∀ tail, IsTokenTail typed tail → ¬ trimRight tail <+: trimLeft completion := by
      intro tail token
      obtain ⟨front, -, -, rfl, -⟩ := id token
      simp [allBlank_append_right token.visible] at blank
    rw [findSome?_tokenTails_eq_none.mpr none, Option.getD_none]
  · rfl

theorem remove_eq_of_echo (longest : IsLongestEcho typed (trimLeft completion) tail)
    (echo : Echoes (trimLeft completion) tail left) : remove completion typed = left := by
  rw [remove_eq, findSome?_tokenTails.mpr ⟨tail, longest, echo⟩, Option.getD_some]

theorem remove_eq_or_echo (completion typed : Text) :
    (remove completion typed = completion ∧
        ∀ tail, IsTokenTail typed tail → ¬ trimRight tail <+: trimLeft completion) ∨
      ∃ tail, IsLongestEcho typed (trimLeft completion) tail ∧
        Echoes (trimLeft completion) tail (remove completion typed) := by
  rw [remove_eq]
  cases found : (tokenTails none typed).findSome? (dropEcho (trimLeft completion)) with
  | none => exact .inl ⟨rfl, findSome?_tokenTails_eq_none.mp found⟩
  | some left => exact .inr (findSome?_tokenTails.mp found)

/-- What is left of a completion is its end. All of it is left where nothing but white space is typed, or where
the completion begins with no tail of the typed text. Else the longest such tail is removed: as it stands, or
without the white space at its end and then with the spaces and tabs that follow it. -/
theorem remove_longest_echo (completion typed : Text) :
    remove completion typed <:+ completion ∧
      if allBlank typed = true then remove completion typed = completion
      else
        (remove completion typed = completion ∧
          ∀ tail, IsTokenTail typed tail → ¬ trimRight tail <+: trimLeft completion) ∨
        ∃ tail echo gap, IsTokenTail typed tail ∧ trimLeft completion = echo ++ gap ++ remove completion typed ∧
          (echo = tail ∧ gap = [] ∨ echo = trimRight tail ∧ ∀ c ∈ gap, c = ' ' ∨ c = '\t') ∧
          ∀ longer, IsTokenTail typed longer → tail.length < longer.length →
            ¬ longer <+: trimLeft completion ∧ ¬ trimRight longer <+: trimLeft completion := by
  refine ⟨remove_suffix completion typed, ?_⟩
  by_cases blank : allBlank typed = true
  · rw [if_pos blank, remove, if_pos blank]
  rw [if_neg blank]
  rcases remove_eq_or_echo completion typed with none | ⟨tail, longest, echo⟩
  · exact .inl none
  have longest' (longer : Text) (token : IsTokenTail typed longer) (more : tail.length < longer.length) :
      ¬ longer <+: trimLeft completion ∧ ¬ trimRight longer <+: trimLeft completion := by
    have none := longest.longest longer token more
    exact ⟨fun begins => none ((trimRight_isPrefix longer).trans begins), none⟩
  rcases echo with same | ⟨gap, -, same, spaces, -⟩
  · exact .inr ⟨tail, tail, [], longest.token, by simpa using same, .inl ⟨rfl, rfl⟩, longest'⟩
  · exact .inr ⟨tail, trimRight tail, gap, longest.token, same, .inr ⟨rfl, spaces⟩, longest'⟩

/-! Where the cut falls. -/

/-- A word is cut in two. -/
def CutsWord (removed kept : Text) : Prop :=
  (∃ c ∈ removed.getLast?, isNameChar c = true) ∧ ∃ c ∈ kept.head?, isNameChar c = true

theorem not_isNameChar_of_space {c : Char} (space : c = ' ' ∨ c = '\t') : isNameChar c = false := by
  rcases space with rfl | rfl <;> decide

/-- What is removed of a completion that begins with an echo is the white space before the echo and the echo. -/
theorem removed_eq {echo : Text} (parts : completion = removed ++ kept) (same : trimLeft completion = echo ++ kept) :
    removed = indentation completion ++ echo := by
  have whole : removed ++ kept = indentation completion ++ echo ++ kept := by
    rw [← parts, List.append_assoc, ← same, indentation_append_trimLeft]
  exact List.append_cancel_right whole

/-- Behind typed white space the cut falls inside a word exactly where the completion goes on with the last word
that is typed: it begins with the longest tail that it echoes, but instead of the white space at the end of the
tail it has further letters of the word. -/
theorem cutsWord_iff {completion typed removed : Text} (ended : ∃ c ∈ typed.getLast?, isBlank c = true)
    (parts : completion = removed ++ remove completion typed) :
    CutsWord removed (remove completion typed) ↔
      ∃ tail rest, IsLongestEcho typed (trimLeft completion) tail ∧
        trimLeft completion = trimRight tail ++ rest ∧ CutsWord (trimRight typed) rest := by
  obtain ⟨white, last, blank⟩ := ended
  have cut {tail : Text} (token : IsTokenTail typed tail)
      (same : removed = indentation completion ++ trimRight tail) :
      removed.getLast? = (trimRight typed).getLast? := by
    rw [same, List.getLast?_append_of_ne_nil _ token.trimRight_ne_nil, token.getLast?_trimRight]
  constructor
  · rintro ⟨⟨c, ends, named⟩, goes⟩
    have solid := not_isBlank_of_isNameChar named
    rcases remove_eq_or_echo completion typed with ⟨same, -⟩ | ⟨tail, longest, echo⟩
    · have none : removed = [] := by
        rw [same] at parts
        exact List.self_eq_append_left.mp parts
      simp [none] at ends
    rcases echo with same | ⟨gap, lacking, same, spaces, -⟩
    · -- The tail ends with the white space that is typed, and so does what is removed.
      have filled : tail ≠ [] := fun none => by simpa [none, allBlank] using longest.token.visible
      rw [removed_eq parts same, List.getLast?_append_of_ne_nil _ filled, longest.token.getLast?, last] at ends
      cases ends
      simp [solid] at blank
    · have removes := removed_eq parts same
      have none : gap = [] := by
        by_contra some
        rw [removes, ← List.append_assoc, List.getLast?_append_of_ne_nil _ some] at ends
        simp [not_isNameChar_of_space (spaces c (List.mem_of_getLast? ends))] at named
      subst none
      rw [List.append_nil] at same removes
      refine ⟨tail, _, longest, same, ⟨c, ?_, named⟩, goes⟩
      rw [← cut longest.token removes]
      exact ends
  · rintro ⟨tail, rest, longest, same, ⟨c, ends, named⟩, d, goes, named'⟩
    have lacking : ¬ tail <+: trimLeft completion := by
      rintro ⟨more, whole⟩
      obtain ⟨gap, split, spaced⟩ := dropTrailing_append isBlank tail
      have split : tail = trimRight tail ++ gap := split
      have follows : gap ++ more = rest := by
        have behind : trimRight tail ++ (gap ++ more) = trimRight tail ++ rest := calc
          trimRight tail ++ (gap ++ more) = tail ++ more := by rw [← List.append_assoc, ← split]
          _ = trimRight tail ++ rest := by rw [whole, same]
        exact List.append_cancel_left behind
      cases gap with
      | nil =>
        have bare : trimRight tail = tail := by simpa using split.symm
        have solid := getLast?_dropTrailing isBlank tail white
        simp [show dropTrailing isBlank tail = tail from bare, longest.token.getLast?, last, blank] at solid
      | cons e others =>
        rw [← follows] at goes
        cases goes
        simp [not_isBlank_of_isNameChar named'] at spaced
    have kept : remove completion typed = rest := by
      refine remove_eq_of_echo longest (.bare [] lacking (by simpa using same) (by simp) fun e first => ?_)
      intro space
      cases goes.symm.trans first
      simp [not_isNameChar_of_space space] at named'
    rw [kept] at parts ⊢
    refine ⟨⟨c, ?_, named⟩, d, goes, named'⟩
    rw [cut longest.token (removed_eq parts same)]
    exact ends

/-- The word that is typed is cut off a longer one. -/
theorem returned_cut :
    (∃ c ∈ ("return " : Text).getLast?, isBlank c = true) ∧ remove "returned" "return " = "ed" ∧
      CutsWord "return" "ed" := by
  have ended : ∃ c ∈ ("return " : Text).getLast?, isBlank c = true := ⟨' ', by decide, by decide⟩
  have kept : remove "returned" "return " = "ed" := by decide +kernel
  have token : IsTokenTail "return " "return " := ⟨[], 'r', "eturn ", rfl, rfl, by decide, by simp⟩
  have longest : IsLongestEcho "return " (trimLeft "returned") "return " :=
    { token
      echoed := by decide +kernel
      longest := by
        rintro longer ⟨front, -, -, whole, -⟩ more
        have sizes := congrArg List.length whole
        simp at sizes more
        omega }
  have parts : ("returned" : Text) = "return" ++ remove "returned" "return " := by rw [kept]; rfl
  have cut := cutsWord_iff ended parts
  rw [kept] at cut
  exact ⟨ended, kept, cut.mpr ⟨"return ", "ed", longest, by decide +kernel,
    ⟨'n', by decide +kernel, by decide⟩, 'e', by decide, by decide⟩⟩

end Overlap

end InlineCompletion
