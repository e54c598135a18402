import InlineCompletion.Data.Json
import InlineCompletion.Decimal.Reading

/-!
JSON read back into values. Beyond the standard, the words for numbers that are not finite are read
as well. The fields of a record keep their order.
-/

namespace InlineCompletion.Json

open Text

/-- A piece of a string: a character that stands for itself, or a UTF-16 unit by its number. -/
inductive Piece where
  | char (c : Char)
  | unit (n : Nat)
  deriving DecidableEq, Repr

def hexDigit? (c : Char) : Option Nat :=
  if '0' ≤ c && c ≤ '9' then some (c.toNat - 48)
  else if 'a' ≤ c && c ≤ 'f' then some (c.toNat - 87)
  else if 'A' ≤ c && c ≤ 'F' then some (c.toNat - 55)
  else none

def hexNumber? (digits : Text) : Option Nat :=
  digits.foldlM (fun n c => (hexDigit? c).map fun d => 16 * n + d) 0

/-- What a backslash and a letter stand for. -/
def unescape (c : Char) : Option Char :=
  if c = doubleQuote || c = backslash || c = '/' then some c
  else if c = 'n' then some '\n'
  else if c = 'r' then some '\r'
  else if c = 't' then some '\t'
  else if c = 'b' then some (Char.ofNat 8)
  else if c = 'f' then some (Char.ofNat 12)
  else none

/-- A string after its opening quote, and the text after its closing one. -/
def readPieces : Text → Option (List Piece × Text)
  | [] => none
  | c :: rest =>
    if c = doubleQuote then some ([], rest)
    else if c = backslash then
      match rest with
      | 'u' :: c₁ :: c₂ :: c₃ :: c₄ :: rest => do
        let n ← hexNumber? [c₁, c₂, c₃, c₄]
        let (pieces, rest) ← readPieces rest
        some (.unit n :: pieces, rest)
      | e :: rest => do
        let c ← unescape e
        let (pieces, rest) ← readPieces rest
        some (.char c :: pieces, rest)
      | [] => none
    else if c.toNat < 32 then none
    else (readPieces rest).map fun (pieces, rest) => (.char c :: pieces, rest)

def isHighUnit (n : Nat) : Bool :=
  55296 ≤ n && n < 56320

def isLowUnit (n : Nat) : Bool :=
  56320 ≤ n && n < 57344

def replacement : Char := Char.ofNat 65533

def ofUnit (n : Nat) : Char :=
  if isHighUnit n || isLowUnit n then replacement else Char.ofNat n

/-- Two units that belong together make one character; one that lacks its partner is replaced. -/
def joinPieces : List Piece → Text
  | [] => []
  | .char c :: rest => c :: joinPieces rest
  | [.unit n] => [ofUnit n]
  | .unit n :: .char c :: rest => ofUnit n :: c :: joinPieces rest
  | .unit n :: .unit m :: rest =>
    if isHighUnit n && isLowUnit m then
      Char.ofNat (65536 + 1024 * (n - 55296) + (m - 56320)) :: joinPieces rest
    else ofUnit n :: joinPieces (.unit m :: rest)

def readString (text : Text) : Option (Text × Text) :=
  (readPieces text).map fun (pieces, rest) => (joinPieces pieces, rest)

def isWordChar (c : Char) : Bool :=
  c.isAlphanum || c = '-' || c = '+' || c = '.'

/-- A number starts with a digit, which is a zero only if it is the only one before the point. -/
def isNumber (word : Text) : Bool :=
  let digits :=
    match word with
    | '-' :: rest => rest
    | _ => word
  match digits with
  | '0' :: c :: _ => !c.isDigit
  | c :: _ => c.isDigit
  | [] => false

def readNumber (word : Text) : Option Data :=
  if !isNumber word then none
  else
    match Decimal.readSigned Decimal.readPlainDigits word with
    | some n => some (.int n)
    | none => (Decimal.readSignedFloat word).map .real

def words : List (Text × Data) :=
  [("null", .null), ("true", .bool true), ("false", .bool false), ("NaN", .real (0.0 / 0.0)),
    ("Infinity", .real (1.0 / 0.0)), ("-Infinity", .real (-1.0 / 0.0))]

def readWord (text : Text) : Option (Data × Text) :=
  let word := text.takeWhile isWordChar
  ((words.lookup word).or (readNumber word)).map fun value => (value, text.drop word.length)

def skipBlank (text : Text) : Text :=
  text.dropWhile fun c => c = ' ' || c = '\n' || c = '\r' || c = '\t'

/-- The text after a mark that may have white space before it. -/
def readMark (mark : Char) (text : Text) : Option Text :=
  match skipBlank text with
  | c :: rest => if c = mark then some rest else none
  | [] => none

/-- A later field replaces an earlier one of the same name. -/
def addField (key : Text) (value : Data) (fields : List (Text × Data)) : List (Text × Data) :=
  if (fields.lookup key).isSome then fields else (key, value) :: fields

mutual

/-- One value and the text after it. Each bracket, comma and value costs a unit of fuel. -/
def readValue : Nat → Text → Option (Data × Text)
  | 0, _ => none
  | fuel + 1, text =>
    match skipBlank text with
    | [] => none
    | c :: rest =>
      if c = doubleQuote then (readString rest).map fun (t, rest) => (.text t, rest)
      else if c = '[' then
        match readMark ']' rest with
        | some rest => some (.list [], rest)
        | none => (readItems fuel rest).map fun (items, rest) => (.list items, rest)
      else if c = openBrace then
        match readMark closeBrace rest with
        | some rest => some (.record [], rest)
        | none => (readFields fuel rest).map fun (fields, rest) => (.record fields, rest)
      else readWord (c :: rest)

def readItems : Nat → Text → Option (List Data × Text)
  | 0, _ => none
  | fuel + 1, text => do
    let (item, rest) ← readValue fuel text
    match readMark ',' rest with
    | some rest =>
      let (items, rest) ← readItems fuel rest
      some (item :: items, rest)
    | none => (readMark ']' rest).map fun rest => ([item], rest)

def readFields : Nat → Text → Option (List (Text × Data) × Text)
  | 0, _ => none
  | fuel + 1, text => do
    let (key, rest) ← readString (← readMark doubleQuote text)
    let (value, rest) ← readValue fuel (← readMark ':' rest)
    match readMark ',' rest with
    | some rest =>
      let (fields, rest) ← readFields fuel rest
      some (addField key value fields, rest)
    | none => (readMark closeBrace rest).map fun rest => ([(key, value)], rest)

end

/-- The value that a text is. -/
def read (text : Text) : Option Data :=
  match readValue (2 * text.length + 2) text with
  | some (value, rest) => if (skipBlank rest).isEmpty then some value else none
  | none => none

end InlineCompletion.Json
