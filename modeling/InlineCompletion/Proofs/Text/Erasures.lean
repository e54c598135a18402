import InlineCompletion.Proofs.Text.Patterns

/-!
Taking all matches out of a text, as a run over it: where nothing matches a character stays, and where something
does the run goes on behind the preferred match.
-/

namespace InlineCompletion.Pattern

/-- Taking the matches out from the place onward leaves this text. -/
inductive Erases {α : Type} (p : Pattern α) : Cursor → Text → Prop
  | done {before : Text} (none : p ⟨before, []⟩ = []) : Erases p ⟨before, []⟩ []
  | keep {before rest left : Text} {c : Char} (none : p ⟨before, c :: rest⟩ = [])
      (more : Erases p ⟨c :: before, rest⟩ left) : Erases p ⟨before, c :: rest⟩ (c :: left)
  | take {cursor last : Cursor} {left : Text} {a : α} (taken : Prefers p cursor a last)
      (onward : last.after.length < cursor.after.length) (more : Erases p last left) : Erases p cursor left

variable {α β : Type} {p : Pattern α} {f : α → Pattern β} {cursor last : Cursor}
  {a : α} {before front middle text rest left : Text} {c : Char}

/-! The text behind a match. -/

/-- The preferred match at the place ends before the rest. -/
def Takes (p : Pattern α) (cursor : Cursor) (rest : Text) : Prop :=
  ∃ a last, Prefers p cursor a last ∧ last.after = rest

/-- Where something matches, one match is preferred. -/
theorem exists_prefers (some : p cursor ≠ []) : ∃ a last, Prefers p cursor a last ∧ (a, last) ∈ p cursor := by
  obtain ⟨first, more, same⟩ := List.exists_cons_of_ne_nil some
  refine ⟨first.1, first.2, ?_, same ▸ List.mem_cons_self ..⟩
  rw [Prefers, same, List.head?_cons]

/-- Where all matches end before the same rest, so does the preferred one. -/
theorem Takes.of_all (some : p cursor ≠ []) (all : ∀ found ∈ p cursor, found.2.after = rest) : Takes p cursor rest := by
  obtain ⟨a, last, preferred, there⟩ := exists_prefers some
  exact ⟨a, last, preferred, all _ there⟩

theorem Prefers.takes_bind (first : Prefers p cursor a last) (next : Takes (f a) last rest) :
    Takes (p >>= f) cursor rest := by
  obtain ⟨b, last, preferred, behind⟩ := next
  exact ⟨b, last, first.bind preferred, behind⟩

/-! Places where nothing matches. -/

/-- Matches begin with the character. -/
def Begins (c : Char) (p : Pattern α) : Prop :=
  ∀ cursor, ∀ found ∈ p cursor, cursor.after.head? = some c

theorem begins_literal (c : Char) (more : Text) : Begins c (literal (c :: more)) := by
  intro cursor found member
  unfold literal literalBy at member
  split at member
  · cases member
  · next d rest after =>
    split at member
    · next same => rw [after, of_decide_eq_true same, List.head?_cons]
    · cases member

theorem Begins.bind (begins : Begins c p) : Begins c (p >>= f) := by
  intro cursor found member
  obtain ⟨first, there, -⟩ := (mem_bind p f cursor found).mp member
  exact begins cursor first there

theorem Begins.eq_nil (begins : Begins c p) (other : cursor.after.head? ≠ some c) : p cursor = [] :=
  List.eq_nil_iff_forall_not_mem.mpr fun found member => other (begins cursor found member)

/-- With this rest behind it, nothing matches anywhere in the front. -/
def Avoids (p : Pattern α) (rest : Text) : Text → Prop
  | [] => True
  | c :: front => (∀ before, p ⟨before, c :: (front ++ rest)⟩ = []) ∧ Avoids p rest front

theorem Begins.avoids (begins : Begins c p) (lacks : c ∉ front) (rest : Text) : Avoids p rest front := by
  induction front with
  | nil => trivial
  | cons d front ih =>
    rw [List.mem_cons, not_or] at lacks
    refine ⟨fun before => begins.eq_nil fun same => lacks.1 ?_, ih lacks.2⟩
    exact (Option.some.inj same).symm

theorem Avoids.append (avoids : Avoids p (middle ++ rest) front) (onward : Avoids p rest middle) :
    Avoids p rest (front ++ middle) := by
  induction front with
  | nil => exact onward
  | cons c front ih => exact ⟨fun before => List.append_assoc .. ▸ avoids.1 before, ih avoids.2⟩

/-! As few characters as possible. -/

theorem fewest_bind_cons (p : Pattern α) (before rest : Text) (c : Char) :
    (fewest (fun _ => true) >>= fun _ => p) ⟨before, c :: rest⟩ =
      p ⟨before, c :: rest⟩ ++ (fewest (fun _ => true) >>= fun _ => p) ⟨c :: before, rest⟩ := by
  show ((runEnds _ _ _).map _).flatMap _ = _ ++ ((runEnds _ _ _).map _).flatMap _
  simp [runEnds]

theorem fewest_bind_nil (p : Pattern α) (before : Text) :
    (fewest (fun _ => true) >>= fun _ => p) ⟨before, []⟩ = p ⟨before, []⟩ := by
  show ((runEnds _ _ _).map _).flatMap _ = _
  simp [runEnds]

/-- What follows is looked for behind a front where it does not match. -/
theorem fewest_bind_append (avoids : Avoids p rest front) (before : Text) :
    (fewest (fun _ => true) >>= fun _ => p) ⟨before, front ++ rest⟩ =
      (fewest (fun _ => true) >>= fun _ => p) ⟨front.reverse ++ before, rest⟩ := by
  induction front generalizing before with
  | nil => rfl
  | cons c front ih =>
    rw [List.cons_append, fewest_bind_cons, avoids.1, List.nil_append, ih avoids.2, List.reverse_cons,
      List.append_assoc]
    rfl

/-- The text behind the first place where it matches. -/
theorem Takes.fewest_bind (avoids : Avoids p text front)
    (here : Takes p ⟨front.reverse ++ before, text⟩ rest) :
    Takes (fewest (fun _ => true) >>= fun _ => p) ⟨before, front ++ text⟩ rest := by
  obtain ⟨b, last, preferred, behind⟩ := here
  refine ⟨b, last, ?_, behind⟩
  unfold Prefers at preferred ⊢
  rw [fewest_bind_append avoids]
  cases text with
  | nil => rw [fewest_bind_nil, preferred]
  | cons c text => rw [fewest_bind_cons, List.head?_append, preferred, Option.some_or]

/-! Runs. -/

theorem Erases.append (avoids : Avoids p rest front) (more : Erases p ⟨front.reverse ++ before, rest⟩ left) :
    Erases p ⟨before, front ++ rest⟩ (front ++ left) := by
  induction front generalizing before with
  | nil => exact more
  | cons c front ih =>
    rw [List.reverse_cons, List.append_assoc] at more
    exact .keep (avoids.1 before) (ih avoids.2 more)

theorem Takes.erases (taken : Takes p ⟨before, text⟩ rest) (onward : rest.length < text.length)
    (more : ∀ before, Erases p ⟨before, rest⟩ left) : Erases p ⟨before, text⟩ left := by
  obtain ⟨a, ⟨beyond, after⟩, preferred, rfl⟩ := taken
  exact .take preferred onward (more beyond)

theorem length_of_searchFrom {found : Match α} (first : searchFrom p before text = some found) :
    found.first.after.length ≤ text.length := by
  obtain ⟨skipped, rest, rfl, place, -⟩ := exists_of_searchFrom first
  exact place ▸ (List.suffix_append skipped rest).length_le

/-- A character where nothing matches is copied. -/
theorem splice_keep (none : p ⟨before, c :: rest⟩ = []) (replacement : Match α → Text) (fuel : Nat) :
    splice replacement ⟨before, c :: rest⟩ (findFrom p fuel ⟨before, c :: rest⟩) =
      c :: splice replacement ⟨c :: before, rest⟩ (findFrom p fuel ⟨c :: before, rest⟩) := by
  have later : searchFrom p before (c :: rest) = searchFrom p (c :: before) rest := by
    rw [searchFrom, matchAt_eq_none_iff.mpr none]
  cases fuel with
  | zero => rfl
  | succ fuel =>
    unfold findFrom
    rw [later]
    cases first : searchFrom p (c :: before) rest with
    | none => rfl
    | some found =>
      have bound := length_of_searchFrom first
      unfold splice Cursor.between
      dsimp only
      rw [List.length_cons, Nat.succ_sub bound, List.take_succ_cons]
      rfl

theorem Erases.splice_eq (erases : Erases p cursor left) {fuel : Nat} (enough : cursor.after.length < fuel) :
    splice (fun _ => []) cursor (findFrom p fuel cursor) = left := by
  induction erases generalizing fuel with
  | done none =>
    cases fuel with
    | zero => rfl
    | succ fuel =>
      unfold findFrom searchFrom
      rw [matchAt_eq_none_iff.mpr none]
      rfl
  | keep none _ ih => rw [splice_keep none, ih (Nat.lt_of_succ_lt enough)]
  | @take cursor last left a taken onward more ih =>
    obtain ⟨fuel, rfl⟩ := Nat.exists_eq_succ_of_ne_zero (Nat.ne_zero_of_lt enough)
    have first : searchFrom p cursor.before cursor.after = some ⟨cursor, last, a⟩ := by
      obtain ⟨before, _ | ⟨c, rest⟩⟩ := cursor
      · cases onward
      · unfold searchFrom
        rw [taken.matchAt]
    unfold findFrom
    rw [first]
    dsimp only
    rw [if_pos onward, splice, ih (by omega), Cursor.between, Nat.sub_self]
    rfl

/-- A run over the whole text is what the replacement does. -/
theorem Erases.eraseAll_eq (erases : Erases p (Cursor.start text) left) : eraseAll p text = left :=
  erases.splice_eq (Nat.lt_succ_self _)

/-! Patterns that match at the start of the text only. -/

theorem atStart_bind_eq_nil (inside : before ≠ []) (f : Unit → Pattern β) (text : Text) :
    (atStart >>= f) ⟨before, text⟩ = [] :=
  bind_eq_nil (if_neg (by simpa using inside))

theorem erases_atStart_bind (inside : before ≠ []) (f : Unit → Pattern β) (text : Text) :
    Erases (atStart >>= f) ⟨before, text⟩ text := by
  induction text generalizing before with
  | nil => exact .done (atStart_bind_eq_nil inside f [])
  | cons c rest ih => exact .keep (atStart_bind_eq_nil inside f _) (ih (List.cons_ne_nil c before))

theorem eraseAll_atStart_bind_eq_self {f : Unit → Pattern β} (none : f () (Cursor.start text) = []) :
    eraseAll (atStart >>= f) text = text := by
  have here : (atStart >>= f) (Cursor.start text) = [] := by
    show List.flatMap _ [((), Cursor.start text)] = []
    rw [List.flatMap_singleton, none]
  cases text with
  | nil => exact (Erases.done here).eraseAll_eq
  | cons c rest => exact (Erases.keep here (erases_atStart_bind (List.cons_ne_nil c []) f rest)).eraseAll_eq

/-- Once something has been read there is no further match. -/
theorem eraseAll_atStart_bind_eq {f : Unit → Pattern β} (taken : Takes (f ()) (Cursor.start text) rest)
    (moves : ∀ found ∈ f () (Cursor.start text), found.2.before ≠ []) (onward : rest.length < text.length) :
    eraseAll (atStart >>= f) text = rest := by
  obtain ⟨b, ⟨before, after⟩, preferred, rfl⟩ := taken
  have inside := moves _ (List.mem_of_head? preferred)
  have first : Prefers (atStart >>= f) (Cursor.start text) b ⟨before, after⟩ := (prefers_place rfl).bind preferred
  exact (Erases.take first onward (erases_atStart_bind inside f after)).eraseAll_eq

end InlineCompletion.Pattern
