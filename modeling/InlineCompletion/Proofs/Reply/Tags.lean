import InlineCompletion.Proofs.Text.Casing
import InlineCompletion.Proofs.Text.Erasures
import InlineCompletion.Proofs.Text.Readings
import InlineCompletion.Reply.Reasoning

/-!
The tags of reasoning blocks as patterns read them. The name of a tag has no angle bracket and no slash in it, so
whatever is read for a name before a closing bracket is the whole name.
-/

namespace InlineCompletion

namespace Reasoning

open Pattern Text

theorem low_wrapperTags : ∀ name ∈ wrapperTags, ∀ letter ∈ name, letter.isLower = true := by
  have all : ∀ name ∈ wrapperTags, name.all Char.isLower = true := by decide +kernel
  exact fun name member => List.all_eq_true.mp (all name member)

theorem low_blockTags : ∀ name ∈ blockTags, ∀ letter ∈ name, letter.isLower = true :=
  fun name member => low_wrapperTags name (List.mem_append_left _ member)

/-- The name of a block, and how it stands in a text: in any letter case. -/
structure Tag where
  name : Text
  spelled : Text
  known : name ∈ blockTags
  cased : lower spelled = name

namespace Tag

/-- The tag that begins a block. -/
def opened (tag : Tag) : Text :=
  '<' :: (tag.spelled ++ ['>'])

/-- The tag that ends a block. -/
def closed (tag : Tag) : Text :=
  '<' :: '/' :: (tag.spelled ++ ['>'])

variable (tag : Tag)

theorem low : ∀ letter ∈ tag.name, letter.isLower = true :=
  low_blockTags tag.name tag.known

theorem spells : Spells tag.name tag.spelled :=
  spells_of_lower tag.low tag.cased

theorem not_mem {c : Char} (own : lowerChar c = [c]) (odd : c.isLower = false) : c ∉ tag.spelled :=
  tag.spells.not_mem tag.low own odd

theorem spelled_ne_nil : tag.spelled ≠ [] := by
  have all : ∀ name ∈ blockTags, name ≠ [] := by decide +kernel
  intro none
  have spells := tag.spells
  rw [none] at spells
  cases spells.length_eq ▸ List.length_pos_iff.mpr (all tag.name tag.known)

end Tag

variable {q : Pattern Unit} {kind : Text → Prop} {cursor : Cursor} {before front word rest after : Text} {tag : Tag}
  {found : Unit × Cursor}

/-! Names before a bracket. -/

theorem takeWhile_bracket (lacks : '>' ∉ word) (rest : Text) : (word ++ '>' :: rest).takeWhile (· ≠ '>') = word := by
  have inside : ∀ c ∈ word, decide (c ≠ '>') = true := fun c member =>
    decide_eq_true fun same => lacks (same ▸ member)
  rw [List.takeWhile_append_of_pos inside, List.takeWhile_cons_of_neg (by simp), List.append_nil]

/-- A text splits in one way only at its first closing bracket. -/
theorem append_bracket_inj (lacks : '>' ∉ front) (lacks' : '>' ∉ word)
    (same : front ++ '>' :: after = word ++ '>' :: rest) : front = word ∧ after = rest := by
  have equal := congrArg (List.takeWhile (· ≠ '>')) same
  rw [takeWhile_bracket lacks, takeWhile_bracket lacks'] at equal
  subst equal
  exact ⟨rfl, (List.cons.inj (List.append_cancel_left same)).2⟩

/-- What the pattern reads is words of the kind, without brackets and slashes. -/
def ReadsWords (q : Pattern Unit) (kind : Text → Prop) : Prop :=
  ∀ cursor, ∀ found ∈ q cursor, ∃ word, '>' ∉ word ∧ '/' ∉ word ∧ kind word ∧ cursor.Reads word found.2

theorem readsWords_oneOfTags {tags : List Text} (low : ∀ name ∈ tags, ∀ letter ∈ name, letter.isLower = true) :
    ReadsWords (oneOfTags tags) fun _ => True := by
  intro cursor found member
  obtain ⟨p, listed, member⟩ := List.mem_flatMap.mp member
  obtain ⟨name, given, rfl⟩ := List.mem_map.mp listed
  obtain ⟨word, same, reads⟩ := reads_literalBy member
  have lacks {d : Char} (small : d.toNat < 128) (odd : d.isAlpha = false) : d ∉ word := by
    intro member
    obtain ⟨letter, there, form⟩ := exists_of_forall₂ same member
    cases odd.symm.trans (isAlpha_of_sameLetter (low name given letter there) form small)
  exact ⟨word, lacks (by decide) rfl, lacks (by decide) rfl, trivial, reads⟩

theorem mem_oneOfTags {tags : List Text} (known : tag.name ∈ tags) (before rest : Text) :
    ((), ⟨tag.spelled.reverse ++ before, rest⟩) ∈ oneOfTags tags ⟨before, tag.spelled ++ rest⟩ :=
  List.mem_flatMap.mpr ⟨anyCase tag.name, List.mem_map_of_mem known,
    mem_literalBy (tag.spells.sameLetters tag.low) before rest⟩

/-! Opening tags. -/

theorem reads_openTag {found : (Cursor × Cursor) × Cursor} (member : found ∈ openTag cursor) :
    ∃ word, '>' ∉ word ∧ '/' ∉ word ∧ found.1.1.between found.1.2 = word ∧
      cursor.after = '<' :: (word ++ '>' :: found.2.after) := by
  obtain ⟨bracket, first, member⟩ := (mem_bind _ _ _ found).mp member
  obtain ⟨name, named, member⟩ := (mem_bind _ _ _ found).mp member
  obtain ⟨last, closes, member⟩ := (mem_bind _ _ _ found).mp member
  cases List.mem_singleton.mp member
  obtain ⟨named, places⟩ := mem_of_mem_captured named
  obtain ⟨word, lacks, lacks', -, reads⟩ := readsWords_oneOfTags low_blockTags _ _ named
  refine ⟨word, lacks, lacks', ?_, ?_⟩
  · dsimp only
    rw [places]
    exact reads.between_eq
  · have whole := (reads_literal first).trans (Cursor.Reads.trans reads (reads_literal closes))
    unfold Cursor.Reads at whole
    rw [whole]
    simp

theorem openTag_closed (tag : Tag) (before rest : Text) : openTag ⟨before, tag.closed ++ rest⟩ = [] := by
  refine List.eq_nil_iff_forall_not_mem.mpr fun found member => ?_
  obtain ⟨word, -, lacks, -, same⟩ := reads_openTag member
  have same := (List.cons.inj same).2
  cases word with
  | nil => cases (List.cons.inj same).1
  | cons c word => exact lacks ((List.cons.inj same).1 ▸ List.mem_cons_self ..)

theorem prefers_openTag (tag : Tag) (before rest : Text) : ∃ places last,
    Prefers openTag ⟨before, tag.opened ++ rest⟩ places last ∧ places.1.between places.2 = tag.spelled ∧
      last.after = rest := by
  have split : tag.opened ++ rest = ['<'] ++ (tag.spelled ++ (['>'] ++ rest)) := by simp [Tag.opened]
  have some : openTag ⟨before, tag.opened ++ rest⟩ ≠ [] := by
    rw [split]
    exact List.ne_nil_of_mem (mem_bind_of_mem (mem_literal ['<'] before _)
      (mem_bind_of_mem (mem_captured (mem_oneOfTags tag.known ('<' :: before) (['>'] ++ rest)))
        (mem_bind_of_mem (mem_literal ['>'] _ rest) (List.mem_singleton_self _))))
  obtain ⟨places, last, preferred, member⟩ := exists_prefers some
  obtain ⟨word, lacks, -, between, same⟩ := reads_openTag member
  have same : tag.spelled ++ '>' :: rest = word ++ '>' :: last.after := by
    simpa [Tag.opened] using same
  obtain ⟨rfl, rfl⟩ := append_bracket_inj (tag.not_mem rfl rfl) lacks same
  exact ⟨places, last, preferred, between, rfl⟩

/-! Closing tags. -/

/-- A closing tag with what the pattern reads as its name. -/
def closing (q : Pattern Unit) : Pattern Unit := do
  literal "</"
  q
  literal ">"

theorem begins_closing (q : Pattern Unit) : Begins '<' (closing q) :=
  (begins_literal '<' ['/']).bind

theorem closing_opened (q : Pattern Unit) (tag : Tag) (before rest : Text) :
    closing q ⟨before, tag.opened ++ rest⟩ = [] := by
  refine List.eq_nil_iff_forall_not_mem.mpr fun found member => ?_
  obtain ⟨slash, member, -⟩ := (mem_bind _ _ _ found).mp member
  have same : tag.opened ++ rest = '<' :: '/' :: slash.2.after := reads_literal member
  obtain ⟨c, more, split⟩ := List.exists_cons_of_ne_nil tag.spelled_ne_nil
  unfold Tag.opened at same
  rw [split] at same
  have first := (List.cons.inj (List.cons.inj same).2).1
  exact tag.not_mem (c := '/') rfl rfl (by rw [split, first]; exact List.mem_cons_self ..)

theorem of_mem_closing (words : ReadsWords q kind) (member : found ∈ closing q ⟨before, tag.closed ++ rest⟩) :
    kind tag.spelled ∧ found.2.after = rest := by
  obtain ⟨slash, member, more⟩ := (mem_bind _ _ _ found).mp member
  obtain ⟨name, read, last⟩ := (mem_bind _ _ _ found).mp more
  obtain ⟨word, lacks, -, given, reads⟩ := words _ name read
  have whole := ((reads_literal member).trans reads).trans (reads_literal last)
  have same : tag.spelled ++ '>' :: rest = word ++ '>' :: found.2.after := by
    simpa [Cursor.Reads, Tag.closed] using whole
  obtain ⟨rfl, rfl⟩ := append_bracket_inj (tag.not_mem rfl rfl) lacks same
  exact ⟨given, rfl⟩

theorem before_ne_nil_of_mem_closing (member : found ∈ closing q cursor) : found.2.before ≠ [] := by
  obtain ⟨slash, -, more⟩ := (mem_bind _ _ _ found).mp member
  obtain ⟨⟨_, before, after⟩, -, last⟩ := (mem_bind _ _ _ found).mp more
  cases after with
  | nil => cases last
  | cons c after =>
    have last : found ∈ if decide ('>' = c) = true then [((), (⟨c :: before, after⟩ : Cursor))] else [] := last
    split at last
    · cases List.mem_singleton.mp last
      exact List.cons_ne_nil c before
    · cases last

theorem takes_closing (words : ReadsWords q kind)
    (here : ∀ before rest, ((), ⟨tag.spelled.reverse ++ before, rest⟩) ∈ q ⟨before, tag.spelled ++ rest⟩)
    (before rest : Text) : Takes (closing q) ⟨before, tag.closed ++ rest⟩ rest := by
  have split : tag.closed ++ rest = ['<', '/'] ++ (tag.spelled ++ (['>'] ++ rest)) := by simp [Tag.closed]
  refine .of_all ?_ fun found member => (of_mem_closing words member).2
  rw [split]
  exact List.ne_nil_of_mem (mem_bind_of_mem (mem_literal ['<', '/'] before _)
    (mem_bind_of_mem (here _ _) (mem_literal ['>'] _ rest)))

theorem takes_closeTag (tag : Tag) (before rest : Text) : Takes closeTag ⟨before, tag.closed ++ rest⟩ rest :=
  takes_closing (readsWords_oneOfTags low_blockTags) (mem_oneOfTags tag.known) before rest

/-! The name of the opening tag again. -/

theorem sameName_eq {letter letter' c d : Char} (form : lowerChar c = [letter]) (form' : lowerChar d = [letter']) :
    sameName c d = decide (letter = letter') := by
  unfold sameName
  rw [form, form']
  simp

theorem readsWords_sameName (tag : Tag) :
    ReadsWords (literalBy sameName tag.spelled)
      (List.Forall₂ (fun c d => sameName c d = true) tag.spelled) := by
  intro cursor found member
  obtain ⟨word, same, reads⟩ := reads_literalBy member
  have lacks {d : Char} (own : lowerChar d = [d]) (odd : d.isLower = false) : d ∉ word := by
    intro member
    obtain ⟨c, there, given⟩ := exists_of_forall₂ same member
    obtain ⟨letter, known, form⟩ := exists_of_forall₂ tag.spells there
    rw [sameName_eq form own] at given
    cases odd.symm.trans (of_decide_eq_true given ▸ tag.low letter known)
  exact ⟨word, lacks rfl rfl, lacks rfl rfl, same, reads⟩

/-- Tags have the same name exactly if their characters are the same up to case. -/
theorem forall₂_sameName_iff (tag tag' : Tag) :
    List.Forall₂ (fun c d => sameName c d = true) tag.spelled tag'.spelled ↔ tag.name = tag'.name := by
  have compare {name name' spelled spelled' : Text} (spells : Spells name spelled) (spells' : Spells name' spelled') :
      List.Forall₂ (fun c d => sameName c d = true) spelled spelled' ↔ name = name' := by
    induction spells generalizing name' spelled' with
    | nil =>
      cases spells' with
      | nil => simp
      | cons form rest => simp
    | cons form _ ih =>
      cases spells' with
      | nil => simp
      | cons form' rest =>
        rw [List.forall₂_cons, sameName_eq form form', decide_eq_true_eq, ih rest, List.cons_eq_cons]
  exact compare tag.spells tag'.spells

/-! Tags where nothing matches. -/

theorem avoids_opened {p : Pattern Unit} (begins : Begins '<' p)
    (none : ∀ before rest, p ⟨before, tag.opened ++ rest⟩ = []) (rest : Text) : Avoids p rest tag.opened :=
  ⟨fun before => none before rest, begins.avoids (by simpa using tag.not_mem rfl rfl) rest⟩

theorem avoids_closed {p : Pattern Unit} (begins : Begins '<' p)
    (none : ∀ before rest, p ⟨before, tag.closed ++ rest⟩ = []) (rest : Text) : Avoids p rest tag.closed :=
  ⟨fun before => none before rest, begins.avoids (by simpa using tag.not_mem rfl rfl) rest⟩

/-! What ends a block. -/

/-- The pattern matches at closing tags of this kind, and nowhere else. -/
structure Closes (q : Pattern Unit) (closes : Tag → Bool) : Prop where
  begins : Begins '<' q
  opened : ∀ (tag : Tag) before rest, q ⟨before, tag.opened ++ rest⟩ = []
  other : ∀ tag, closes tag = false → ∀ before rest, q ⟨before, tag.closed ++ rest⟩ = []
  closed : ∀ tag, closes tag = true → ∀ before rest, Takes q ⟨before, tag.closed ++ rest⟩ rest

theorem closes_closeTag : Closes closeTag fun _ => true where
  begins := begins_closing _
  opened := closing_opened _
  other _ none := nomatch none
  closed tag _ := takes_closeTag tag

theorem closes_sameName (tag : Tag) :
    Closes (closing (literalBy sameName tag.spelled)) fun other => decide (tag.name = other.name) where
  begins := begins_closing _
  opened := closing_opened _
  other tag' different before rest := by
    refine List.eq_nil_iff_forall_not_mem.mpr fun found member => of_decide_eq_false different ?_
    exact (forall₂_sameName_iff tag tag').mp (of_mem_closing (readsWords_sameName tag) member).1
  closed tag' same := by
    have same := (forall₂_sameName_iff tag tag').mpr (of_decide_eq_true same)
    exact takes_closing (readsWords_sameName tag) fun before rest => mem_literalBy same before rest

/-! Wrapper tags. -/

theorem mem_wrapperTags (tag : Tag) : tag.name ∈ wrapperTags :=
  List.mem_append_left _ tag.known

/-- The name ends where a word does. -/
theorem mem_wordEdge (tag : Tag) (before rest : Text) :
    ((), ⟨tag.spelled.reverse ++ before, '>' :: rest⟩) ∈ wordEdge ⟨tag.spelled.reverse ++ before, '>' :: rest⟩ := by
  refine List.mem_of_head? (prefers_place ?_)
  refine (edge_behind_iff tag.spelled_ne_nil (fun _ => tag.spells.isWordChar tag.low) before _).mpr fun c first => ?_
  cases first
  decide

theorem takes_wrapperTag (tag : Tag) (before rest : Text) : Takes wrapperTag ⟨before, tag.closed ++ rest⟩ rest := by
  have split : tag.closed ++ rest = ['<'] ++ (['/'] ++ (tag.spelled ++ (['>'] ++ rest))) := by simp [Tag.closed]
  rw [split]
  refine (prefers_literal ['<'] before _).takes_bind ?_
  refine (Prefers.orElse (prefers_literal ['/'] _ _)).takes_bind ?_
  have none (before : Text) : ((), ⟨before, '>' :: rest⟩) ∈ many (· ≠ '>') ⟨before, '>' :: rest⟩ :=
    List.mem_of_head? (@prefers_many _ [] ('>' :: rest) (by simp) (by simp) before)
  refine .of_all (List.ne_nil_of_mem (mem_bind_of_mem (mem_oneOfTags (mem_wrapperTags tag) _ _)
    (mem_bind_of_mem (mem_wordEdge tag _ rest) (mem_bind_of_mem (none _) (mem_literal ['>'] _ rest)))))
    fun found member => ?_
  obtain ⟨name, read, member⟩ := (mem_bind _ _ _ found).mp member
  obtain ⟨edge, stays, member⟩ := (mem_bind _ _ _ found).mp member
  obtain ⟨behind, skips, last⟩ := (mem_bind _ _ _ found).mp member
  obtain ⟨word, lacks, -, -, reads⟩ := readsWords_oneOfTags low_wrapperTags _ _ read
  obtain ⟨run, others, onward⟩ := reads_many skips
  rw [(holds_of_mem_place stays).2] at onward
  have whole := (Cursor.Reads.trans reads onward).trans (reads_literal last)
  have same : tag.spelled ++ '>' :: rest = (word ++ run) ++ '>' :: found.2.after := by
    simpa [Cursor.Reads] using whole
  have lacks : '>' ∉ word ++ run := fun member =>
    (List.mem_append.mp member).elim lacks fun member => of_decide_eq_true (others '>' member) rfl
  exact (append_bracket_inj (tag.not_mem rfl rfl) lacks same).2.symm

end Reasoning

end InlineCompletion
