import InlineCompletion.Proofs.Reply.Tags
import InlineCompletion.Proofs.Text.Pieces

/-!
Tags that are left behind. The last pass takes every wrapper tag out once; what remains on the two sides of one may
be a tag together, and that is the only way in which a tag survives.
-/

namespace InlineCompletion

namespace Reasoning

open Pattern Text

/-- The text spells a name of the list, in any letter case. -/
def Names (names : List Text) (word : Text) : Prop :=
  ∃ name ∈ names, List.Forall₂ (fun letter c => sameLetter letter c = true) name word

/-- A wrapper tag up to the end of its name. -/
def IsHead (head : Text) : Prop :=
  ∃ word, Names wrapperTags word ∧ (head = '<' :: word ∨ head = '<' :: '/' :: word)

/-- The name before it ends, and a bracket closes the tag. -/
structure EndsTag (rest : Text) : Prop where
  stops : ∀ c ∈ rest.head?, isWordChar c = false
  closed : '>' ∈ rest

/-- A wrapper tag stands in the text. -/
def Tagged (text : Text) : Prop :=
  ∃ front head rest, text = front ++ (head ++ rest) ∧ IsHead head ∧ EndsTag rest

/-- The head of a tag begins in one of the pieces and ends in a later one, so that it is there only after the pieces
are joined. -/
def Joins (pieces : List Text) : Prop :=
  ∃ front piece others, pieces = front ++ piece :: others ∧ ∃ skipped left right rest,
    piece = skipped ++ left ∧ others.flatten = right ++ rest ∧ left ≠ [] ∧ right ≠ [] ∧
      IsHead (left ++ right) ∧ EndsTag rest

variable {names : List Text} {word head text rest before : Text} {cursor : Cursor}

theorem IsHead.exists_cons (isHead : IsHead head) : ∃ tail, head = '<' :: tail := by
  obtain ⟨word, -, rfl | rfl⟩ := isHead
  · exact ⟨word, rfl⟩
  · exact ⟨'/' :: word, rfl⟩

/-! The name of a tag. -/

theorem Names.ne_nil (named : Names wrapperTags word) : word ≠ [] := by
  have all : ∀ name ∈ wrapperTags, name ≠ [] := by decide +kernel
  obtain ⟨name, known, same⟩ := named
  rintro rfl
  cases same
  exact all [] known rfl

theorem Names.isWordChar (named : Names wrapperTags word) {c : Char} (member : c ∈ word) : isWordChar c = true := by
  obtain ⟨name, known, same⟩ := named
  obtain ⟨letter, there, form⟩ := exists_of_forall₂ same member
  exact isWordChar_of_sameLetter (low_wrapperTags name known letter there) form

theorem Names.wrapper (named : Names blockTags word) : Names wrapperTags word :=
  named.imp fun _ found => ⟨List.mem_append_left _ found.1, found.2⟩

theorem last_of_mem_oneOfTags {found : Unit × Cursor} (member : found ∈ oneOfTags names cursor) : ∃ word rest,
    Names names word ∧ cursor.after = word ++ rest ∧ found.2 = ⟨word.reverse ++ cursor.before, rest⟩ := by
  obtain ⟨p, listed, member⟩ := List.mem_flatMap.mp member
  obtain ⟨name, given, rfl⟩ := List.mem_map.mp listed
  obtain ⟨word, rest, same, split, last⟩ := last_of_mem_literalBy member
  exact ⟨word, rest, ⟨name, given, same⟩, split, last⟩

theorem forward_oneOfTags (names : List Text) : Forward (oneOfTags names) := by
  intro cursor found member
  obtain ⟨word, rest, -, split, last⟩ := last_of_mem_oneOfTags member
  exact ⟨word, by rw [last, split]⟩

theorem mem_oneOfTags_of_names (named : Names names word) (before rest : Text) :
    ((), ⟨word.reverse ++ before, rest⟩) ∈ oneOfTags names ⟨before, word ++ rest⟩ := by
  obtain ⟨name, known, same⟩ := named
  exact List.mem_flatMap.mpr ⟨anyCase name, List.mem_map_of_mem known, mem_literalBy same before rest⟩

/-- Behind a name there is an edge of a word exactly if the word does not go on. -/
theorem wordEdge_iff (named : Names wrapperTags word) (before rest : Text) :
    (wordOnLeft ⟨word.reverse ++ before, rest⟩ != wordOnRight ⟨word.reverse ++ before, rest⟩) = true ↔
      ∀ c ∈ rest.head?, isWordChar c = false :=
  edge_behind_iff named.ne_nil (fun _ => named.isWordChar) before rest

/-! Where a wrapper tag matches. -/

/-- A wrapper tag from its name on. -/
def tagEnd : Pattern Unit := do
  oneOfTags wrapperTags
  wordEdge
  many (· ≠ '>')
  literal ">"

theorem exists_of_mem_wrapperTag {found : Unit × Cursor} (member : found ∈ wrapperTag cursor) :
    ∃ head rest, cursor.after = head ++ rest ∧ IsHead head ∧ EndsTag rest := by
  obtain ⟨bracket, opens, member⟩ := (mem_bind _ _ _ found).mp member
  obtain ⟨slash, slashed, member⟩ := (mem_bind _ _ _ found).mp member
  obtain ⟨name, named, member⟩ := (mem_bind _ _ _ found).mp member
  obtain ⟨edge, stays, member⟩ := (mem_bind _ _ _ found).mp member
  obtain ⟨behind, skips, closes⟩ := (mem_bind _ _ _ found).mp member
  obtain ⟨word, rest, named, split, last⟩ := last_of_mem_oneOfTags named
  obtain ⟨given, still⟩ := holds_of_mem_place stays
  obtain ⟨run, -, onward⟩ := reads_many skips
  rw [last] at given still
  rw [still] at onward
  have ends : EndsTag rest := by
    refine ⟨(wordEdge_iff named _ _).mp given, ?_⟩
    have whole : rest = (run ++ ['>']) ++ found.2.after := onward.trans (reads_literal closes)
    simp [whole]
  have opens : cursor.after = '<' :: bracket.2.after := reads_literal opens
  rcases mem_of_mem_optional slashed with slashed | none
  · have slashed : bracket.2.after = '/' :: slash.2.after := reads_literal slashed
    exact ⟨'<' :: '/' :: word, rest, by rw [opens, slashed, split]; rfl, ⟨word, named, .inr rfl⟩, ends⟩
  · exact ⟨'<' :: word, rest, by rw [opens, ← none, split]; rfl, ⟨word, named, .inl rfl⟩, ends⟩

theorem wrapperTag_ne_nil (isHead : IsHead head) (ends : EndsTag rest) (before : Text) :
    wrapperTag ⟨before, head ++ rest⟩ ≠ [] := by
  obtain ⟨word, named, form⟩ := isHead
  obtain ⟨run, behind, rfl, open'⟩ := List.eq_append_cons_of_mem ends.closed
  have others : ∀ c ∈ run, decide (c ≠ '>') = true := fun c member =>
    decide_eq_true fun same => open' (same ▸ member)
  have edge (before : Text) : ((), ⟨word.reverse ++ before, run ++ '>' :: behind⟩) ∈
      wordEdge ⟨word.reverse ++ before, run ++ '>' :: behind⟩ :=
    List.mem_of_head? (prefers_place ((wordEdge_iff named before _).mpr ends.stops))
  have skips (before : Text) : ((), ⟨run.reverse ++ before, '>' :: behind⟩) ∈
      many (· ≠ '>') ⟨before, run ++ '>' :: behind⟩ :=
    List.mem_of_head? (prefers_many others (by simp) before)
  have tail (before : Text) : ((), ⟨'>' :: (run.reverse ++ (word.reverse ++ before)), behind⟩) ∈
      tagEnd ⟨before, word ++ (run ++ '>' :: behind)⟩ :=
    mem_bind_of_mem (mem_oneOfTags_of_names named before _)
      (mem_bind_of_mem (edge before) (mem_bind_of_mem (skips _) (mem_literal ['>'] _ behind)))
  rcases form with rfl | rfl
  · have none (before : Text) : ((), ⟨before, word ++ (run ++ '>' :: behind)⟩) ∈
        optional (literal "/") ⟨before, word ++ (run ++ '>' :: behind)⟩ :=
      List.mem_append_right _ (List.mem_singleton_self _)
    exact List.ne_nil_of_mem (mem_bind_of_mem (mem_literal ['<'] before _) (mem_bind_of_mem (none _) (tail _)))
  · have slash (before : Text) : ((), ⟨'/' :: before, word ++ (run ++ '>' :: behind)⟩) ∈
        optional (literal "/") ⟨before, '/' :: (word ++ (run ++ '>' :: behind))⟩ :=
      List.mem_append_left _ (mem_literal ['/'] before _)
    exact List.ne_nil_of_mem (mem_bind_of_mem (mem_literal ['<'] before _) (mem_bind_of_mem (slash _) (tail _)))

theorem wrapperTag_ne_nil_iff : wrapperTag cursor ≠ [] ↔
    ∃ head rest, cursor.after = head ++ rest ∧ IsHead head ∧ EndsTag rest := by
  constructor
  · intro some
    obtain ⟨found, member⟩ := List.exists_mem_of_ne_nil _ some
    exact exists_of_mem_wrapperTag member
  · rintro ⟨head, rest, split, isHead, ends⟩
    have matched := wrapperTag_ne_nil isHead ends cursor.before
    rwa [← split] at matched

theorem occursIn_wrapperTag : occursIn wrapperTag text = true ↔ Tagged text := by
  simp only [occursIn_iff, wrapperTag_ne_nil_iff, Tagged]
  constructor
  · rintro ⟨front, -, split, head, rest, rfl, isHead, ends⟩
    exact ⟨front, head, rest, split, isHead, ends⟩
  · rintro ⟨front, head, rest, split, isHead, ends⟩
    exact ⟨front, head ++ rest, split, head, rest, rfl, isHead, ends⟩

theorem moves_wrapperTag : Moves wrapperTag := by
  refine (moves_literal '<' []).bind fun _ => (forward_optional (forward_literal _)).bind fun _ => ?_
  exact (forward_oneOfTags _).bind fun _ => (forward_place _).bind fun _ => (forward_many _).bind fun _ =>
    forward_literal _

/-! Tags that come about where pieces are joined. -/

/-- A tag ends where the next one begins. -/
theorem EndsTag.of_next {left : Text} (stops : ∀ c ∈ left.head?, isWordChar c = false)
    (matched : wrapperTag ⟨before, rest⟩ ≠ []) : EndsTag (left ++ rest) := by
  obtain ⟨head, more, split, isHead, ends⟩ := wrapperTag_ne_nil_iff.mp matched
  obtain ⟨tail, rfl⟩ := isHead.exists_cons
  have split : rest = '<' :: (tail ++ more) := split
  refine ⟨fun c member => ?_, by simp [split, ends.closed]⟩
  cases left with
  | nil =>
    rw [split] at member
    cases member
    decide
  | cons d left => exact stops c member

theorem joins_of_tagged (tagged : Tagged (pieces wrapperTag text).flatten) : Joins (pieces wrapperTag text) := by
  obtain ⟨front, head, rest, split, isHead, ends⟩ := tagged
  obtain ⟨tail, rfl⟩ := isHead.exists_cons
  obtain ⟨before, skipped, right, others, same, -, whole⟩ := exists_piece_of_flatten split
  have nowhere := eq_nil_of_pieces moves_wrapperTag same
  have whole : '<' :: right ++ others.flatten = '<' :: tail ++ rest := congrArg ('<' :: ·) whole.symm
  -- A head that ends within its piece would have been taken out with the tag.
  have fits (more : Text) (inside : '<' :: right = '<' :: tail ++ more) (behind : rest = more ++ others.flatten) : False := by
    obtain ⟨place, after, none, here⟩ := nowhere
    have ends : EndsTag (more ++ after) := by
      rcases here with ⟨rfl, rfl⟩ | ⟨next, matched⟩
      · have same : rest = more := by simpa using behind
        rw [List.append_nil]
        exact same ▸ ends
      · refine .of_next (fun c member => ends.stops c ?_) matched
        rw [behind, List.head?_append, Option.mem_def.mp member]
        rfl
    have matched := wrapperTag_ne_nil isHead ends place
    rw [← List.append_assoc, ← inside] at matched
    exact matched none
  rcases List.append_eq_append_iff.mp whole with ⟨more, head, behind⟩ | ⟨more, inside, behind⟩
  · by_cases some : more = []
    · subst some
      exact (fits [] (by simpa using head.symm) (by simpa using behind.symm)).elim
    · exact ⟨before, _, others, same, skipped, '<' :: right, more, rest, rfl, behind, List.cons_ne_nil _ _, some,
        head ▸ isHead, ends⟩
  · exact (fits more inside behind).elim

theorem tagged_of_joins (joins : Joins (pieces wrapperTag text)) : Tagged (pieces wrapperTag text).flatten := by
  obtain ⟨front, piece, others, same, skipped, left, right, rest, rfl, whole, -, -, isHead, ends⟩ := joins
  exact ⟨front.flatten ++ skipped, left ++ right, rest, by simp [same, whole], isHead, ends⟩

/-- A tag is left exactly if one is joined. -/
theorem tagged_eraseAll_iff (text : Text) : Tagged (eraseAll wrapperTag text) ↔ Joins (pieces wrapperTag text) :=
  flatten_pieces wrapperTag text ▸ ⟨joins_of_tagged, tagged_of_joins⟩

/-! The passes over a text without tags. -/

theorem exists_of_mem_openTag {found : (Cursor × Cursor) × Cursor} (member : found ∈ openTag cursor) :
    ∃ name rest, Names blockTags name ∧ cursor.after = '<' :: (name ++ '>' :: rest) := by
  obtain ⟨bracket, opens, member⟩ := (mem_bind _ _ _ found).mp member
  obtain ⟨name, named, member⟩ := (mem_bind _ _ _ found).mp member
  obtain ⟨last, closes, -⟩ := (mem_bind _ _ _ found).mp member
  obtain ⟨word, rest, named, split, place⟩ := last_of_mem_oneOfTags (mem_of_mem_captured named).1
  have closes := reads_literal closes
  rw [place] at closes
  have opens : cursor.after = '<' :: bracket.2.after := reads_literal opens
  exact ⟨word, last.2.after, named, by rw [opens, split, show rest = _ from closes]; rfl⟩

theorem exists_of_mem_closeTag {found : Unit × Cursor} (member : found ∈ closeTag cursor) :
    ∃ name rest, Names blockTags name ∧ cursor.after = '<' :: '/' :: (name ++ '>' :: rest) := by
  obtain ⟨bracket, opens, member⟩ := (mem_bind _ _ _ found).mp member
  obtain ⟨name, named, closes⟩ := (mem_bind _ _ _ found).mp member
  obtain ⟨word, rest, named, split, place⟩ := last_of_mem_oneOfTags named
  have closes := reads_literal closes
  rw [place] at closes
  have opens : cursor.after = '<' :: '/' :: bracket.2.after := reads_literal opens
  exact ⟨word, found.2.after, named, by rw [opens, split, show rest = _ from closes]; rfl⟩

theorem endsTag_bracket (rest : Text) : EndsTag ('>' :: rest) where
  stops := by
    intro c member
    cases member
    decide
  closed := List.mem_cons_self ..

theorem tagged_of_openTag (matched : openTag cursor ≠ []) (front : Text) : Tagged (front ++ cursor.after) := by
  obtain ⟨found, member⟩ := List.exists_mem_of_ne_nil _ matched
  obtain ⟨name, rest, named, split⟩ := exists_of_mem_openTag member
  exact ⟨front, '<' :: name, '>' :: rest, by rw [split]; rfl, ⟨name, named.wrapper, .inl rfl⟩, endsTag_bracket rest⟩

theorem tagged_of_closeTag (matched : closeTag cursor ≠ []) (front : Text) : Tagged (front ++ cursor.after) := by
  obtain ⟨found, member⟩ := List.exists_mem_of_ne_nil _ matched
  obtain ⟨name, rest, named, split⟩ := exists_of_mem_closeTag member
  exact ⟨front, '<' :: '/' :: name, '>' :: rest, by rw [split]; rfl, ⟨name, named.wrapper, .inr rfl⟩, endsTag_bracket rest⟩

/-- Neither a reasoning block nor a dangling end of one occurs, and no wrapper tag. -/
structure Clean (text : Text) : Prop where
  block : occursIn block text = false
  danglingEnd : occursIn danglingEnd text = false
  danglingStart : occursIn danglingStart text = false
  wrapperTag : occursIn wrapperTag text = false

theorem clean_iff : Clean text ↔ ¬ Tagged text := by
  constructor
  · intro clean tagged
    cases clean.wrapperTag.symm.trans (occursIn_wrapperTag.mpr tagged)
  · intro untagged
    have opening (front rest : Text) (split : text = front ++ rest) : openTag ⟨front.reverse, rest⟩ = [] := by
      by_contra matched
      exact untagged (split ▸ tagged_of_openTag matched front)
    refine ⟨occursIn_eq_false_iff.mpr fun front rest split => bind_eq_nil (opening front rest split),
      occursIn_eq_false_iff.mpr fun front rest split => ?_,
      occursIn_eq_false_iff.mpr fun front rest split => bind_eq_nil (opening front rest split),
      Bool.eq_false_iff.mpr fun occurs => untagged (occursIn_wrapperTag.mp occurs)⟩
    refine List.eq_nil_iff_forall_not_mem.mpr fun found member => ?_
    obtain ⟨start, stays, member⟩ := (mem_bind _ _ _ found).mp member
    obtain ⟨behind, skips, closes⟩ := (mem_bind _ _ _ found).mp member
    obtain ⟨run, whole⟩ := forward_fewest _ _ _ skips
    rw [(holds_of_mem_place stays).2] at whole
    have tagged := tagged_of_closeTag (List.ne_nil_of_mem closes) (front ++ run)
    rw [List.append_assoc, whole, ← split] at tagged
    exact untagged tagged

theorem moves_openTag : Moves openTag :=
  (moves_literal '<' []).bind fun _ => (forward_captured (forward_oneOfTags _)).bind fun _ =>
    (forward_literal _).bind fun _ => forward_pure _

theorem moves_block : Moves block :=
  moves_openTag.bind fun _ => (forward_fewest _).bind fun _ => (forward_literal _).bind fun _ =>
    (forward_literalBy _ _).bind fun _ => forward_literal _

theorem moves_danglingEnd : Moves danglingEnd :=
  (forward_place _).bind_moves fun _ => (forward_fewest _).bind_moves fun _ =>
    (moves_literal '<' ['/']).bind fun _ => (forward_oneOfTags _).bind fun _ => forward_literal _

theorem moves_danglingStart : Moves danglingStart :=
  moves_openTag.bind fun _ => (forward_many _).bind fun _ => forward_place _

/-- The text as the last pass finds it. -/
def stray (text : Text) : Text :=
  eraseAll danglingStart (eraseAll danglingEnd (eraseAll block text))

theorem stray_sublist (text : Text) : (stray text).Sublist text :=
  ((eraseAll_sublist moves_danglingStart _).trans (eraseAll_sublist moves_danglingEnd _)).trans
    (eraseAll_sublist moves_block text)

theorem strip_eq_self_iff : strip text = text ↔ ¬ Tagged text := by
  constructor
  · intro same tagged
    -- No pass can have taken anything, the last one included.
    have last : (eraseAll wrapperTag (stray text)).Sublist (stray text) := eraseAll_sublist moves_wrapperTag _
    have whole : text.Sublist (stray text) := by
      conv_lhs => rw [← same]
      exact last
    have kept : stray text = text := (stray_sublist text).antisymm whole
    have same : eraseAll wrapperTag (stray text) = text := same
    rw [kept] at same
    exact eraseAll_ne_self moves_wrapperTag (occursIn_wrapperTag.mpr tagged) same
  · intro untagged
    have clean := clean_iff.mpr untagged
    unfold strip
    rw [eraseAll_eq_self clean.block, eraseAll_eq_self clean.danglingEnd, eraseAll_eq_self clean.danglingStart,
      eraseAll_eq_self clean.wrapperTag]

/-- No tag and no block is left, and a second removal changes nothing, unless the last pass joins a tag out of what
stands around another one. -/
theorem strip_clean_iff (text : Text) :
    (Clean (strip text) ↔ ¬ Joins (pieces wrapperTag (stray text))) ∧
      (strip (strip text) = strip text ↔ ¬ Joins (pieces wrapperTag (stray text))) := by
  have joined : Tagged (strip text) ↔ Joins (pieces wrapperTag (stray text)) := tagged_eraseAll_iff (stray text)
  exact ⟨clean_iff.trans (not_congr joined), strip_eq_self_iff.trans (not_congr joined)⟩

example : pieces wrapperTag (stray "x<co<code>de>y") = [("x<co" : Text), "de>y"] := by decide +kernel

end Reasoning

end InlineCompletion
