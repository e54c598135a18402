import InlineCompletion.Text.Alphanumeric
import InlineCompletion.Text.Character
import InlineCompletion.Text.Letter

/-!
Patterns over text. A pattern sends a place in a text to the places where a match may end, the
preferred one first, so a search is the first success and giving up on a choice is going to the
next element of the list.
-/

namespace InlineCompletion

/-- A place inside a text: what stands before it, nearest character first, and what stands after. -/
structure Cursor where
  before : Text
  after : Text
  deriving DecidableEq, Repr

namespace Cursor

def start (text : Text) : Cursor :=
  ⟨[], text⟩

def column (cursor : Cursor) : Nat :=
  cursor.before.length

/-- One character further; stays at the end of the text. -/
def advance (cursor : Cursor) : Cursor :=
  match cursor.after with
  | [] => cursor
  | c :: rest => ⟨c :: cursor.before, rest⟩

/-- The text between an earlier and a later place. -/
def between (first last : Cursor) : Text :=
  first.after.take (first.after.length - last.after.length)

end Cursor

/-- The possible matches at a place: the value read and the place after it, by preference. -/
def Pattern (α : Type) := Cursor → List (α × Cursor)

namespace Pattern

instance : Monad Pattern where
  pure a := fun cursor => [(a, cursor)]
  bind p f := fun cursor => (p cursor).flatMap fun found => f found.1 found.2

variable {α β : Type}

theorem mem_bind (p : Pattern α) (f : α → Pattern β) (cursor : Cursor) (found : β × Cursor) :
    found ∈ (p >>= f) cursor ↔ ∃ first ∈ p cursor, found ∈ f first.1 first.2 := by
  simp [bind, List.mem_flatMap]

/-- The first pattern, or the second one where the first leads nowhere. -/
def orElse (p q : Pattern α) : Pattern α :=
  fun cursor => p cursor ++ q cursor

def choice (ps : List (Pattern α)) : Pattern α :=
  fun cursor => ps.flatMap fun p => p cursor

/-- Matches the empty text where the condition on the place holds. -/
def place (holds : Cursor → Bool) : Pattern Unit :=
  fun cursor => if holds cursor then [((), cursor)] else []

def atStart : Pattern Unit :=
  place fun cursor => cursor.before.isEmpty

/-- The end of the text, or the place before a line break that ends it. -/
def atEnd : Pattern Unit :=
  place fun cursor => cursor.after.isEmpty || cursor.after = ['\n']

def wordOnLeft (cursor : Cursor) : Bool :=
  cursor.before.head?.any Text.isWordChar

def wordOnRight (cursor : Cursor) : Bool :=
  cursor.after.head?.any Text.isWordChar

/-- A word character on exactly one side. -/
def wordEdge : Pattern Unit :=
  place fun cursor => wordOnLeft cursor != wordOnRight cursor

/-- Succeeds without moving where the pattern does not match. -/
def notAhead (p : Pattern α) : Pattern Unit :=
  place fun cursor => (p cursor).isEmpty

def char (p : Char → Bool) : Pattern Unit := fun cursor =>
  match cursor.after with
  | [] => []
  | c :: rest => if p c then [((), ⟨c :: cursor.before, rest⟩)] else []

def oneOf (cs : Text) : Pattern Unit :=
  char fun c => c ∈ cs

/-- The given characters one by one, each compared by `same`. -/
def literalBy (same : Char → Char → Bool) : Text → Pattern Unit
  | [] => fun cursor => [((), cursor)]
  | expected :: more => fun cursor =>
    match cursor.after with
    | [] => []
    | c :: rest =>
      if same expected c then literalBy same more ⟨c :: cursor.before, rest⟩ else []

def literal (text : Text) : Pattern Unit :=
  literalBy (· = ·) text

/-- A lower-case text whose letters may stand in either case. -/
def anyCase (text : Text) : Pattern Unit :=
  literalBy Text.sameLetter text

def oneOfWords (ws : List Text) : Pattern Unit :=
  choice (ws.map literal)

/-- The places where a run of a class may end, the nearest first. -/
def runEnds (p : Char → Bool) : Text → Text → List Cursor
  | before, [] => [⟨before, []⟩]
  | before, c :: rest =>
    ⟨before, c :: rest⟩ :: if p c then runEnds p (c :: before) rest else []

/-- Any number of characters of a class, as many as possible first. -/
def many (p : Char → Bool) : Pattern Unit := fun cursor =>
  (runEnds p cursor.before cursor.after).reverse.map ((), ·)

/-- At least one character of a class, as many as possible first. -/
def many1 (p : Char → Bool) : Pattern Unit := do
  char p
  many p

/-- Any number of characters of a class, as few as possible first. -/
def fewest (p : Char → Bool) : Pattern Unit := fun cursor =>
  (runEnds p cursor.before cursor.after).map ((), ·)

def optional (p : Pattern Unit) : Pattern Unit :=
  orElse p (pure ())

/-- At most `fuel` repetitions, as many as possible first; a repetition has to move on. -/
def repeated (p : Pattern Unit) : Nat → Pattern Unit
  | 0 => pure ()
  | fuel + 1 => fun cursor =>
    ((p cursor).flatMap fun found =>
      if found.2.after.length < cursor.after.length then repeated p fuel found.2 else []) ++
      [((), cursor)]

/-- Any number of repetitions. -/
def star (p : Pattern Unit) : Pattern Unit :=
  fun cursor => repeated p cursor.after.length cursor

/-- The matched text instead of the value. -/
def captured (p : Pattern Unit) : Pattern (Cursor × Cursor) :=
  fun cursor => (p cursor).map fun found => ((cursor, found.2), found.2)

def blanks : Pattern Unit :=
  many Text.isBlank

def someBlanks : Pattern Unit :=
  many1 Text.isBlank

/-- An identifier: an ASCII letter, underscore or dollar sign, then word characters or dollars. -/
def name : Pattern Unit := do
  char Text.isNameStart
  many Text.isNameChar

def anyChar : Pattern Unit :=
  char fun _ => true

/-- A word with white space after it, if it is there. -/
def modifier (word : Text) : Pattern Unit :=
  optional do
    literal word
    someBlanks

/-- Not a line break. -/
def inLine (c : Char) : Bool :=
  c ≠ '\n'

/-- A place where a match was found, and what it read. -/
structure Match (α : Type) where
  first : Cursor
  last : Cursor
  value : α

def Match.text (found : Match α) : Text :=
  found.first.between found.last

/-- The preferred match that begins at the place. -/
def matchAt (p : Pattern α) (cursor : Cursor) : Option (Match α) :=
  (p cursor).head?.map fun found => ⟨cursor, found.2, found.1⟩

/-- The preferred match that begins at the start of the text. -/
def matchStart (p : Pattern α) (text : Text) : Option (Match α) :=
  matchAt p (Cursor.start text)

def matchesStart (p : Pattern α) (text : Text) : Bool :=
  (matchStart p text).isSome

/-- The leftmost match that begins at or after a place. -/
def searchFrom (p : Pattern α) (before : Text) : Text → Option (Match α)
  | [] => matchAt p ⟨before, []⟩
  | c :: rest =>
    match matchAt p ⟨before, c :: rest⟩ with
    | some found => some found
    | none => searchFrom p (c :: before) rest

def search (p : Pattern α) (text : Text) : Option (Match α) :=
  searchFrom p [] text

def occursIn (p : Pattern α) (text : Text) : Bool :=
  (search p text).isSome

/-- Matches from left to right that do not overlap, for patterns that read something. -/
def findFrom (p : Pattern α) : Nat → Cursor → List (Match α)
  | 0, _ => []
  | fuel + 1, cursor =>
    match searchFrom p cursor.before cursor.after with
    | none => []
    | some found =>
      found :: findFrom p fuel
        (if found.last.after.length < found.first.after.length then found.last
         else found.last.advance)

def findAll (p : Pattern α) (text : Text) : List (Match α) :=
  findFrom p (text.length + 1) (Cursor.start text)

/-- The text with each of the given matches replaced. -/
def splice (replacement : Match α → Text) (cursor : Cursor) : List (Match α) → Text
  | [] => cursor.after
  | found :: more =>
    cursor.between found.first ++ replacement found ++ splice replacement found.last more

def replaceAll (p : Pattern α) (replacement : Match α → Text) (text : Text) : Text :=
  splice replacement (Cursor.start text) (findAll p text)

def replaceFirst (p : Pattern α) (replacement : Match α → Text) (text : Text) : Text :=
  splice replacement (Cursor.start text) (search p text).toList

def eraseAll (p : Pattern α) (text : Text) : Text :=
  replaceAll p (fun _ => []) text

def eraseFirst (p : Pattern α) (text : Text) : Text :=
  replaceFirst p (fun _ => []) text

end Pattern

end InlineCompletion
