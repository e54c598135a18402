import InlineCompletion.Proofs.Reply.Passes

/-!
Reasoning blocks inside of each other. A block that holds one of its own name is left too early, at the end of the
inner one: its own closing tag stays, and all that stands before the first such tag is taken for reasoning.
-/

namespace InlineCompletion

namespace Reasoning

/-- A text with properly nested blocks: a piece without tags, and behind it perhaps a block and more text. -/
inductive Passage where
  | plain (segment : Segment)
  | block (front : Segment) (first last : Tag) (pair : first.name = last.name) (inside behind : Passage)

/-- The blocks of such a text, by their names alone. -/
inductive Shape where
  | plain
  | block (name : Text) (known : name ∈ blockTags) (inside behind : Shape)

namespace Shape

/-- There is a block of this name, at any depth. -/
def holds (name : Text) : Shape → Bool
  | plain => false
  | block other _ inside behind => other = name || inside.holds name || behind.holds name

/-- None of the outermost blocks holds a block of its own name. -/
def apart : Shape → Bool
  | plain => true
  | block name _ inside behind => !inside.holds name && behind.apart

end Shape

namespace Passage

def text : Passage → Text
  | plain segment => segment.text
  | block front first last _ inside behind =>
    front.text ++ (first.opened ++ (inside.text ++ (last.closed ++ behind.text)))

/-- The text outside of all blocks. -/
def outside : Passage → Text
  | plain segment => segment.text
  | block front _ _ _ _ behind => front.text ++ behind.outside

def shape : Passage → Shape
  | plain _ => .plain
  | block _ first _ _ inside behind => .block first.name first.known inside.shape behind.shape

def tokens : Passage → List Token
  | plain segment => [.plain segment]
  | block front first last _ inside behind =>
    .plain front :: .opening first :: (inside.tokens ++ .closing last :: behind.tokens)

variable {passage : Passage} {name : Text}

theorem written_tokens (passage : Passage) : written passage.tokens = passage.text := by
  induction passage with
  | plain segment => exact List.append_nil segment.text
  | block front first last pair inside behind inner outer =>
    rw [tokens, written_cons, written_cons, written_append, written_cons, inner, outer]
    rfl

/-! The state between the tokens of a text. -/

/-- Outside of blocks a text begins and ends; inside of one it is left where the text holds a block of its name. -/
theorem awaited_tokens (passage : Passage) : awaited none passage.tokens = none ∧ ∀ name,
    awaited (some name) passage.tokens = if passage.shape.holds name then none else some name := by
  induction passage with
  | plain segment => exact ⟨rfl, fun name => rfl⟩
  | block front first last pair inside behind inner outer =>
    simp only [tokens, awaited_cons, awaited_append, Token.next_plain, Token.next_opening_none, Token.next_opening_some,
      inner.2]
    constructor
    · have closed : (Token.closing last).next
          (if inside.shape.holds first.name then none else some first.name) = none := by
        split
        · rfl
        · exact if_pos pair.symm
      rw [closed, outer.1]
    · intro name
      -- A block of the name inside ends the state, then this one if it has the name, then one behind it.
      cases inner : inside.shape.holds name with
      | true => simp [shape, Shape.holds, inner, outer.1, Token.next]
      | false =>
        by_cases same : first.name = name
        · simp [shape, Shape.holds, same, pair ▸ same, Token.next, outer.1]
        · simp [shape, Shape.holds, inner, same, pair ▸ same, Token.next, outer.2]

theorem awaited_some_of_lacks (lacks : passage.shape.holds name = false) :
    awaited (some name) passage.tokens = some name := by
  rw [(awaited_tokens passage).2, lacks]
  rfl

/-- Inside of a block nothing is left of a text that holds none of its name. -/
theorem left_some_tokens (lacks : passage.shape.holds name = false) : left (some name) passage.tokens = [] := by
  induction passage with
  | plain segment => rfl
  | block front first last pair inside behind inner outer =>
    simp only [shape, Shape.holds, Bool.or_eq_false_iff, decide_eq_false_iff_not] at lacks
    have state : (Token.closing last).next (some name) = some name := if_neg (pair ▸ lacks.1.1)
    simp only [tokens, left, Token.kept, Token.next_plain, Token.next_opening_some, left_append,
      inner lacks.1.2, awaited_some_of_lacks lacks.1.2, state, outer lacks.2, List.append_nil]

/-- The closing tag of a block is left where the block holds one of its own name. -/
theorem left_block (front : Segment) (first last : Tag) (pair : first.name = last.name) (inside behind : Passage) :
    left none (block front first last pair inside behind).tokens =
      .plain front :: (left (some first.name) inside.tokens ++
        ((if inside.shape.holds first.name then [.closing last] else []) ++ left none behind.tokens)) := by
  have closed : (Token.closing last).next (some first.name) = none := if_pos pair.symm
  simp only [tokens, left, Token.next_plain, Token.next_opening_none, left_append, (awaited_tokens inside).2]
  cases inside.shape.holds first.name with
  | true => rfl
  | false => simp only [Bool.false_eq_true, if_false, closed, Token.kept, List.singleton_append, List.nil_append]

/-- Where the blocks of each name are apart, the text outside of them is left, and no tag. -/
theorem left_of_apart (apart : passage.shape.apart = true) :
    unmarked (left none passage.tokens) = passage.outside ∧
      behind (fun _ => true) (left none passage.tokens) = none := by
  induction passage with
  | plain segment => exact ⟨List.append_nil segment.text, rfl⟩
  | block front first last pair inside behind inner outer =>
    simp only [shape, Shape.apart, Bool.and_eq_true, Bool.not_eq_true'] at apart
    obtain ⟨same, none⟩ := outer apart.2
    rw [left_block, left_some_tokens apart.1, apart.1]
    exact ⟨congrArg (front.text ++ ·) same, none⟩

theorem strip_of_apart (apart : passage.shape.apart = true) : strip passage.text = passage.outside := by
  obtain ⟨same, none⟩ := left_of_apart apart
  rw [← written_tokens, strip_written (awaited_tokens passage).1, afterClosing, none]
  exact same

/-- Where they are not, a closing tag is left. -/
theorem exists_closing (crossed : passage.shape.apart = false) :
    ∃ tag, .closing tag ∈ left none passage.tokens := by
  induction passage with
  | plain segment => cases crossed
  | block front first last pair inside behind inner outer =>
    rw [left_block]
    cases held : inside.shape.holds first.name with
    | true => exact ⟨last, by simp⟩
    | false =>
      simp only [shape, Shape.apart, held, Bool.not_false, Bool.true_and] at crossed
      obtain ⟨tag, there⟩ := outer crossed
      exact ⟨tag, by simp [there]⟩

end Passage

/-! A text of each shape. -/

def blank : Segment :=
  ⟨[], List.not_mem_nil⟩

/-- The tag as it is listed. -/
def Tag.listed (name : Text) (known : name ∈ blockTags) : Tag where
  name := name
  spelled := name
  known := known
  cased := by
    have all : ∀ name ∈ blockTags, Text.lower name = name := by decide +kernel
    exact all name known

namespace Shape

/-- Blocks of this shape, with nothing but tags behind the first piece. -/
def fill (first : Segment) : Shape → Passage
  | plain => .plain first
  | block name known inside behind =>
    .block first (.listed name known) (.listed name known) rfl (inside.fill blank) (behind.fill blank)

theorem shape_fill (shape : Shape) (first : Segment) : (shape.fill first).shape = shape := by
  induction shape generalizing first with
  | plain => rfl
  | block name known inside behind inner outer => rw [fill, Passage.shape, inner, outer]; rfl

theorem outside_fill (shape : Shape) (first : Segment) : (shape.fill first).outside = first.text := by
  induction shape generalizing first with
  | plain => rfl
  | block name known inside behind inner outer => rw [fill, Passage.outside, outer]; exact List.append_nil first.text

theorem tokens_fill (shape : Shape) (first : Segment) :
    ∃ more, (shape.fill first).tokens = .plain first :: more ∧ ∀ token ∈ more, token.unmarked = [] := by
  induction shape generalizing first with
  | plain => exact ⟨[], rfl, fun token member => nomatch member⟩
  | block name known inside behind inner outer =>
    obtain ⟨held, split, empty⟩ := inner blank
    obtain ⟨others, split', empty'⟩ := outer blank
    refine ⟨_, rfl, fun token member => ?_⟩
    rw [split, split'] at member
    simp only [List.mem_cons, List.mem_append] at member
    rcases member with rfl | (rfl | member) | rfl | rfl | member
    · rfl
    · rfl
    · exact empty token member
    · rfl
    · rfl
    · exact empty' token member

/-- Of such a text nothing is kept where a closing tag is left. -/
theorem strip_fill {shape : Shape} (crossed : shape.apart = false) (first : Segment) :
    strip (shape.fill first).text = [] := by
  obtain ⟨more, split, empty⟩ := tokens_fill shape first
  obtain ⟨tag, there⟩ := Passage.exists_closing ((shape_fill shape first).symm ▸ crossed)
  have kept : left none (shape.fill first).tokens = .plain first :: left none more := by rw [split]; rfl
  rw [← Passage.written_tokens, strip_written (Passage.awaited_tokens _).1, afterClosing]
  cases found : behind (fun _ => true) (left none (shape.fill first).tokens) with
  | none => exact absurd there (not_mem_of_behind_eq_none found tag)
  | some rest =>
    -- The first piece goes with the closing tag, and the pieces behind it are empty.
    rw [kept] at found
    have found : behind (fun _ => true) (left none more) = some rest := found
    exact List.flatMap_eq_nil_iff.mpr fun token member => empty token (mem_left (behind_subset found member)).1

end Shape

/-- Whatever the pieces of a text are and however its tags are spelled, the reasoning is taken out and all else is
kept, exactly for the shapes of which no outermost block holds one of its own name. -/
theorem strip_eq_outside_iff (shape : Shape) :
    (∀ passage : Passage, passage.shape = shape → strip passage.text = passage.outside) ↔ shape.apart = true := by
  constructor
  · intro exact
    by_contra crossed
    have kept := exact (shape.fill ⟨"x", by decide⟩) (shape.shape_fill _)
    rw [Shape.strip_fill (Bool.eq_false_iff.mpr crossed), Shape.outside_fill] at kept
    cases kept
  · rintro apart passage rfl
    exact Passage.strip_of_apart apart

example : strip "x<think>a<think>b</think>c</think>d" = ("d" : Text) := by decide +kernel

end Reasoning

end InlineCompletion
