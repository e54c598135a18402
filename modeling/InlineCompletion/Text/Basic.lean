/-!
Text as a list of characters, so that a column is an index and every scan is a recursion on the
list. Offsets and lengths count characters.
-/

namespace InlineCompletion

abbrev Text := List Char

instance : Coe String Text := ⟨String.toList⟩

namespace Text

def openBrace : Char := '\x7b'
def closeBrace : Char := '\x7d'
def backslash : Char := '\x5c'
def singleQuote : Char := '\x27'
def doubleQuote : Char := '\x22'
def backtick : Char := '\x60'

/-- The three characters that open and close string literals. -/
def isQuote (c : Char) : Bool :=
  c = singleQuote || c = doubleQuote || c = backtick

def startsWith (text head : Text) : Bool :=
  head.isPrefixOf text

def endsWith (text tail : Text) : Bool :=
  tail.isSuffixOf text

def startsWithAny (text : Text) (heads : List Text) : Bool :=
  heads.any (startsWith text)

def endsWithAny (text : Text) (tails : List Text) : Bool :=
  tails.any (endsWith text)

/-- The least index at which `needle` occurs; the empty needle occurs at once. -/
def indexOf? (needle : Text) : Text → Option Nat
  | [] => if needle.isEmpty then some 0 else none
  | c :: rest =>
    if startsWith (c :: rest) needle then some 0
    else (indexOf? needle rest).map (· + 1)

def contains (text needle : Text) : Bool :=
  (indexOf? needle text).isSome

/-- Pieces between separators: always one more than there are separators. -/
def splitOn (separator : Char) : Text → List Text
  | [] => [[]]
  | c :: rest =>
    if c = separator then [] :: splitOn separator rest
    else
      match splitOn separator rest with
      | [] => [[c]]
      | piece :: pieces => (c :: piece) :: pieces

theorem splitOn_ne_nil (separator : Char) (text : Text) : splitOn separator text ≠ [] := by
  induction text with
  | nil => simp [splitOn]
  | cons c rest ih =>
    unfold splitOn
    split
    · simp
    · cases splitOn separator rest <;> simp

def join (separator : Text) : List Text → Text
  | [] => []
  | [piece] => piece
  | piece :: pieces => piece ++ separator ++ join separator pieces

theorem join_splitOn (separator : Char) (text : Text) :
    join [separator] (splitOn separator text) = text := by
  induction text with
  | nil => rfl
  | cons c rest ih =>
    unfold splitOn
    split
    · rename_i same
      have nonempty := splitOn_ne_nil separator rest
      cases pieces : splitOn separator rest with
      | nil => exact absurd pieces nonempty
      | cons piece more => simp_all [join]
    · cases pieces : splitOn separator rest with
      | nil => exact absurd pieces (splitOn_ne_nil separator rest)
      | cons piece more =>
        cases more with
        | nil => simp_all [join]
        | cons second others => simp_all [join]

def lines (text : Text) : List Text :=
  splitOn '\n' text

def unlines (pieces : List Text) : Text :=
  join ['\n'] pieces

def commaSeparated (pieces : List Text) : Text :=
  join ", " pieces

/-- The first piece before a line break. -/
def firstLine (text : Text) : Text :=
  text.takeWhile (· ≠ '\n')

def dropTrailing (p : Char → Bool) (text : Text) : Text :=
  (text.reverse.dropWhile p).reverse

/-- At least `width` characters, filled with blanks on the right. -/
def padRight (width : Nat) (text : Text) : Text :=
  text ++ List.replicate (width - text.length) ' '

/-- Pieces of `size` characters, the last one possibly shorter. -/
def chunks (size : Nat) (text : Text) : List Text :=
  go text.length text
where
  go : Nat → Text → List Text
    | 0, _ => []
    | _ + 1, [] => []
    | fuel + 1, rest => rest.take (max size 1) :: go fuel (rest.drop (max size 1))

/-- A position counted from the front, or from the back when it is negative. -/
def clampIndex (length : Nat) (index : Int) : Nat :=
  if index < 0 then (index + length).toNat else min index.toNat length

def sliceTo (text : Text) (stop : Int) : Text :=
  text.take (clampIndex text.length stop)

def sliceFrom (text : Text) (start : Int) : Text :=
  text.drop (clampIndex text.length start)

def slice (text : Text) (start stop : Int) : Text :=
  (sliceTo text stop).drop (clampIndex text.length start)

def ofNat (n : Nat) : Text :=
  Nat.toDigits 10 n

def ofInt (n : Int) : Text :=
  if n < 0 then '-' :: ofNat n.natAbs else ofNat n.natAbs

end Text

/-- Keeps the first occurrence of every element. -/
def firstOccurrences [DecidableEq α] (xs : List α) : List α :=
  (xs.foldl (fun seen x => if x ∈ seen then seen else x :: seen) []).reverse

end InlineCompletion

/-!
The three ways to end a line made into one.
-/

namespace InlineCompletion.Text

/-- Every carriage return, with the line feed behind it if there is one, becomes a line feed. -/
def normalizeNewlines : Text → Text
  | [] => []
  | '\r' :: '\n' :: rest => '\n' :: normalizeNewlines rest
  | c :: rest => (if c = '\r' then '\n' else c) :: normalizeNewlines rest

theorem not_mem_normalizeNewlines (text : Text) : '\r' ∉ normalizeNewlines text := by
  fun_induction normalizeNewlines text with
  | case1 => simp
  | case2 rest ih => simp [ih]
  | case3 c rest _ ih => by_cases h : c = '\r' <;> simp_all [eq_comm]

end InlineCompletion.Text
