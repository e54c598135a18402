import InlineCompletion.Proofs.Reply.Tags

/-!
The passes over a text of pieces and tags. The first one goes from an opening tag to the next closing tag of its
name, whatever stands between the two; the second one takes all that stands before a closing tag that is left.
-/

namespace InlineCompletion

namespace Reasoning

open Pattern Text

/-- A piece of text in which no tag begins. -/
structure Segment where
  text : Text
  untagged : '<' ∉ text

/-- A text with tags, piece by piece. -/
inductive Token where
  | plain (segment : Segment)
  | opening (tag : Tag)
  | closing (tag : Tag)

namespace Token

def text : Token → Text
  | plain segment => segment.text
  | opening tag => tag.opened
  | closing tag => tag.closed

/-- What stands there beside the tags. -/
def unmarked : Token → Text
  | plain segment => segment.text
  | opening _ => []
  | closing _ => []

/-- The name of the block in which the text stands after the token: only the outermost one counts. -/
def next : Option Text → Token → Option Text
  | none, opening tag => some tag.name
  | some name, closing tag => if tag.name = name then none else some name
  | awaited, _ => awaited

/-- Outside of blocks a token is kept, unless it begins one. -/
def kept : Option Text → Token → List Token
  | none, opening _ => []
  | none, token => [token]
  | some _, _ => []

theorem next_plain (segment : Segment) (state : Option Text) : (plain segment).next state = state := by
  cases state <;> rfl

theorem next_opening_none (tag : Tag) : (opening tag).next none = some tag.name := rfl

theorem next_opening_some (tag : Tag) (name : Text) : (opening tag).next (some name) = some name := rfl

end Token

def written (tokens : List Token) : Text :=
  tokens.flatMap Token.text

def unmarked (tokens : List Token) : Text :=
  tokens.flatMap Token.unmarked

/-- The name whose closing tag is awaited after the tokens. -/
def awaited (name : Option Text) (tokens : List Token) : Option Text :=
  tokens.foldl Token.next name

/-- The tokens outside of the blocks, each from an opening tag to the next closing tag of its name. -/
def left : Option Text → List Token → List Token
  | _, [] => []
  | name, token :: more => token.kept name ++ left (token.next name) more

/-- What follows the first closing tag of a kind. -/
def behind (closes : Tag → Bool) : List Token → Option (List Token)
  | [] => none
  | .closing tag :: more => if closes tag then some more else behind closes more
  | _ :: more => behind closes more

/-- What follows the first closing tag, or everything where there is none. -/
def afterClosing (tokens : List Token) : List Token :=
  (behind (fun _ => true) tokens).getD tokens

variable {q : Pattern Unit} {closes : Tag → Bool} {token : Token} {tokens more : List Token} {name : Text}
  {state : Option Text}

theorem written_cons (token : Token) (tokens : List Token) : written (token :: tokens) = token.text ++ written tokens :=
  rfl

theorem written_append (front rest : List Token) : written (front ++ rest) = written front ++ written rest :=
  List.flatMap_append ..

/-! Runs over tokens. -/

theorem awaited_cons (state : Option Text) (token : Token) (tokens : List Token) :
    awaited state (token :: tokens) = awaited (token.next state) tokens :=
  rfl

theorem awaited_append (state : Option Text) (front rest : List Token) :
    awaited state (front ++ rest) = awaited (awaited state front) rest :=
  List.foldl_append ..

theorem left_append (state : Option Text) (front rest : List Token) :
    left state (front ++ rest) = left state front ++ left (awaited state front) rest := by
  induction front generalizing state with
  | nil => rfl
  | cons token front ih => rw [List.cons_append, left, ih, left, List.append_assoc]; rfl

/-- What is left is tokens of the text, none of which begins a block. -/
theorem mem_left (member : token ∈ left state tokens) : token ∈ tokens ∧ ∀ tag, token ≠ .opening tag := by
  induction tokens generalizing state with
  | nil => cases member
  | cons first more ih =>
    rcases List.mem_append.mp member with here | later
    · cases state with
      | none =>
        cases first with
        | opening tag => cases here
        | plain segment => cases List.mem_singleton.mp here; exact ⟨List.mem_cons_self .., nofun⟩
        | closing tag => cases List.mem_singleton.mp here; exact ⟨List.mem_cons_self .., nofun⟩
      | some name => cases here
    · exact ⟨List.mem_cons_of_mem _ (ih later).1, (ih later).2⟩

theorem exists_of_behind (found : behind closes tokens = some more) : ∃ front tag,
    tokens = front ++ .closing tag :: more ∧ closes tag = true ∧ behind closes front = none := by
  induction tokens with
  | nil => cases found
  | cons token tokens ih =>
    cases token with
    | plain segment =>
      obtain ⟨front, tag, rfl, kind, none⟩ := ih found
      exact ⟨.plain segment :: front, tag, rfl, kind, none⟩
    | opening other =>
      obtain ⟨front, tag, rfl, kind, none⟩ := ih found
      exact ⟨.opening other :: front, tag, rfl, kind, none⟩
    | closing other =>
      unfold behind at found
      split at found
      · next kind =>
        cases found
        exact ⟨[], other, rfl, kind, rfl⟩
      · next differs =>
        obtain ⟨front, tag, rfl, kind, none⟩ := ih found
        exact ⟨.closing other :: front, tag, rfl, kind, (if_neg differs).trans none⟩

theorem behind_subset (found : behind closes tokens = some more) : more ⊆ tokens := by
  obtain ⟨front, tag, rfl, -, -⟩ := exists_of_behind found
  exact List.subset_append_of_subset_right front (List.subset_cons_self ..)

theorem afterClosing_subset (tokens : List Token) : afterClosing tokens ⊆ tokens := by
  unfold afterClosing
  cases found : behind (fun _ => true) tokens with
  | none => exact List.Subset.refl tokens
  | some more => exact behind_subset found

theorem not_mem_of_behind_eq_none (none : behind (fun _ => true) tokens = none) (tag : Tag) :
    .closing tag ∉ tokens := by
  intro member
  induction tokens with
  | nil => cases member
  | cons token tokens ih =>
    cases token with
    | plain segment => exact ih none ((List.mem_cons.mp member).resolve_left nofun)
    | opening other => exact ih none ((List.mem_cons.mp member).resolve_left nofun)
    | closing other => cases none

/-- A run that awaits a closing tag and ends outside of blocks goes on behind that tag. -/
theorem exists_behind (ends : awaited (some name) tokens = none) :
    ∃ more, behind (fun tag => decide (name = tag.name)) tokens = some more ∧ awaited none more = none ∧
      left (some name) tokens = left none more := by
  induction tokens with
  | nil => cases ends
  | cons token tokens ih =>
    cases token with
    | plain segment => exact ih ends
    | opening tag => exact ih ends
    | closing tag =>
      unfold behind
      by_cases same : tag.name = name
      · have state : (Token.closing tag).next (some name) = none := if_pos same
        rw [awaited_cons, state] at ends
        rw [if_pos (decide_eq_true same.symm), left, state]
        exact ⟨tokens, rfl, ends, rfl⟩
      · have state : (Token.closing tag).next (some name) = some name := if_neg same
        rw [awaited_cons, state] at ends
        rw [if_neg (by simpa using Ne.symm same), left, state]
        exact ih ends

/-! Passes over a text. -/

theorem Closes.avoids_written (ends : Closes q closes) (none : behind closes tokens = none) (rest : Text) :
    Avoids q rest (written tokens) := by
  induction tokens with
  | nil => trivial
  | cons token tokens ih =>
    cases token with
    | plain segment => exact .append (ends.begins.avoids segment.untagged _) (ih none)
    | opening tag => exact .append (avoids_opened ends.begins (ends.opened tag) _) (ih none)
    | closing tag =>
      unfold behind at none
      split at none
      · cases none
      · next differs =>
        exact .append (avoids_closed ends.begins (ends.other tag (by simpa using differs)) _) (ih none)

/-- As few tokens as possible are skipped. -/
theorem Closes.takes_behind (ends : Closes q closes) (found : behind closes tokens = some more) (before : Text) :
    Takes (fewest (fun _ => true) >>= fun _ => q) ⟨before, written tokens⟩ (written more) := by
  obtain ⟨front, tag, rfl, kind, none⟩ := exists_of_behind found
  rw [written_append]
  exact .fewest_bind (ends.avoids_written none _) (ends.closed tag kind _ _)

theorem Closes.fewest_eq_nil (ends : Closes q closes) (none : behind closes tokens = none) (before : Text) :
    (fewest (fun _ => true) >>= fun _ => q) ⟨before, written tokens⟩ = [] := by
  have skipped := fewest_bind_append (ends.avoids_written none []) before
  rw [List.append_nil] at skipped
  rw [skipped, fewest_bind_nil]
  exact ends.begins.eq_nil (by simp)

theorem length_written_lt (found : behind closes tokens = some more) :
    (written more).length < (written tokens).length := by
  obtain ⟨front, tag, rfl, -, -⟩ := exists_of_behind found
  rw [written_append, written_cons, Token.text, Tag.closed]
  simp
  omega

theorem begins_openTag : Begins '<' openTag :=
  (begins_literal '<' []).bind

theorem begins_block : Begins '<' block :=
  begins_openTag.bind

/-- A block reaches to the next closing tag of its name. -/
theorem takes_block {tag : Tag} (found : behind (fun other => decide (tag.name = other.name)) tokens = some more)
    (before : Text) : Takes block ⟨before, tag.opened ++ written tokens⟩ (written more) := by
  obtain ⟨places, ⟨inside, after⟩, preferred, between, rfl⟩ := prefers_openTag tag before (written tokens)
  refine preferred.takes_bind ?_
  rw [between]
  exact (closes_sameName tag).takes_behind found inside

theorem erases_block (ends : awaited none tokens = none) (before : Text) :
    Erases block ⟨before, written tokens⟩ (written (left none tokens)) := by
  -- By the number of tokens, since the run goes on behind the closing tag of a block.
  induction size : tokens.length using Nat.strongRecOn generalizing tokens before with
  | _ _ ih =>
  subst size
  have ih (others : List Token) (shorter : others.length < tokens.length) (ends : awaited none others = none)
      (before : Text) : Erases block ⟨before, written others⟩ (written (left none others)) :=
    ih _ shorter ends before rfl
  cases tokens with
  | nil => exact .done (begins_block.eq_nil (by simp))
  | cons token tokens =>
    cases token with
    | plain segment =>
      exact .append (begins_block.avoids segment.untagged _) (ih tokens (Nat.lt_succ_self _) ends _)
    | opening tag =>
      obtain ⟨more, found, ends, same⟩ := exists_behind ends
      obtain ⟨front, other, split, -⟩ := exists_of_behind found
      have shorter : more.length < (Token.opening tag :: tokens).length := by
        rw [split]
        simp
        omega
      have onward : (written more).length < (written (.opening tag :: tokens)).length := by
        have within := length_written_lt found
        rw [written_cons, List.length_append]
        omega
      show Erases block _ (written (left (some tag.name) tokens))
      rw [same]
      exact (takes_block found before).erases onward fun before => ih more shorter ends before
    | closing tag =>
      have none (before rest : Text) : block ⟨before, tag.closed ++ rest⟩ = [] :=
        bind_eq_nil (openTag_closed tag before rest)
      exact .append (avoids_closed begins_block none _) (ih tokens (Nat.lt_succ_self _) ends _)

/-- What stands before the first closing tag goes with it. -/
theorem eraseAll_danglingEnd (tokens : List Token) :
    eraseAll danglingEnd (written tokens) = written (afterClosing tokens) := by
  unfold afterClosing
  cases found : behind (fun _ => true) tokens with
  | none => exact eraseAll_atStart_bind_eq_self (closes_closeTag.fewest_eq_nil found [])
  | some more =>
    refine eraseAll_atStart_bind_eq (closes_closeTag.takes_behind found []) (fun found member => ?_)
      (length_written_lt found)
    obtain ⟨_, -, last⟩ := (mem_bind _ _ _ found).mp member
    exact before_ne_nil_of_mem_closing last

theorem erases_danglingStart (unopened : ∀ token ∈ tokens, ∀ tag, token ≠ .opening tag) (before : Text) :
    Erases danglingStart ⟨before, written tokens⟩ (written tokens) := by
  have begins : Begins '<' danglingStart := begins_openTag.bind
  induction tokens generalizing before with
  | nil => exact .done (begins.eq_nil (by simp))
  | cons token tokens ih =>
    have ih (before : Text) := ih (fun token member => unopened token (List.mem_cons_of_mem _ member)) before
    cases token with
    | plain segment => exact .append (begins.avoids segment.untagged _) (ih _)
    | opening tag => exact absurd rfl (unopened _ (List.mem_cons_self ..) tag)
    | closing tag =>
      exact .append (avoids_closed begins (fun before rest => bind_eq_nil (openTag_closed tag before rest)) _) (ih _)

theorem erases_wrapperTag (unopened : ∀ token ∈ tokens, ∀ tag, token ≠ .opening tag) (before : Text) :
    Erases wrapperTag ⟨before, written tokens⟩ (unmarked tokens) := by
  have begins : Begins '<' wrapperTag := (begins_literal '<' []).bind
  induction tokens generalizing before with
  | nil => exact .done (begins.eq_nil (by simp))
  | cons token tokens ih =>
    have ih (before : Text) := ih (fun token member => unopened token (List.mem_cons_of_mem _ member)) before
    cases token with
    | plain segment => exact .append (begins.avoids segment.untagged _) (ih _)
    | opening tag => exact absurd rfl (unopened _ (List.mem_cons_self ..) tag)
    | closing tag =>
      have onward : (written tokens).length < (tag.closed ++ written tokens).length := by
        simp [Tag.closed]
        omega
      exact (takes_wrapperTag tag before _).erases onward ih

/-- All passes together, over a text in which every block is closed. -/
theorem strip_written (ends : awaited none tokens = none) :
    strip (written tokens) = unmarked (afterClosing (left none tokens)) := by
  have unopened : ∀ token ∈ afterClosing (left none tokens), ∀ tag, token ≠ .opening tag := fun token member =>
    (mem_left (afterClosing_subset _ member)).2
  unfold strip
  rw [(erases_block ends []).eraseAll_eq, eraseAll_danglingEnd, (erases_danglingStart unopened []).eraseAll_eq,
    (erases_wrapperTag unopened []).eraseAll_eq]

end Reasoning

end InlineCompletion
