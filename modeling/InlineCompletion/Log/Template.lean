import InlineCompletion.Data.Display
import InlineCompletion.Decimal.Writing
import InlineCompletion.Failure
import InlineCompletion.Text.Character

/-!
Message templates with percent directives: `%`, perhaps a key in parentheses, flags, a width, a
precision and a letter that says how the argument is written.
-/

namespace InlineCompletion.Log

open Text

structure Directive where
  key : Option Text := none
  leftAligned : Bool := false
  plus : Bool := false
  space : Bool := false
  alternate : Bool := false
  zeros : Bool := false
  width : Nat := 0
  precision : Option Nat := none
  letter : Char

/-- The arguments of a template: a list that has to be used up, or one record. Of a record a
directive can take one value, which is the record itself before any key was named. -/
inductive Arguments where
  | listed (items : List Data)
  | keyed (record : Data) (current : Option Data)

namespace Template

def tooFew : Failure := ⟨.type, "not enough arguments for format string"⟩

def tooMany : Failure := ⟨.type, "not all arguments converted during string formatting"⟩

def incomplete : Failure := ⟨.value, "incomplete format"⟩

/-- The next value. -/
def next : Arguments → Except Failure (Data × Arguments)
  | .listed [] => .error tooFew
  | .listed (item :: rest) => .ok (item, .listed rest)
  | .keyed record (some value) => .ok (value, .keyed record none)
  | .keyed _ none => .error tooFew

def needsRecord : Failure := ⟨.type, "format requires a mapping"⟩

/-- Makes the value of a key the next one. -/
def select (key : Text) : Arguments → Except Failure Arguments
  | .listed _ => .error needsRecord
  | .keyed record _ =>
    match record.field? key with
    | some value => .ok (.keyed record (some value))
    | none => .error ⟨.key, key⟩

/-- Widens a text, with zeros behind its sign if they are asked for. -/
def pad (d : Directive) (numeric : Bool) (sign body : Text) : Text :=
  let missing := d.width - (sign.length + body.length)
  if d.leftAligned then sign ++ body ++ List.replicate missing ' '
  else if d.zeros && numeric then sign ++ List.replicate missing '0' ++ body
  else List.replicate missing ' ' ++ sign ++ body

def signOf (d : Directive) (negative : Bool) : Text :=
  if negative then "-" else if d.plus then "+" else if d.space then " " else []

def needsNumber (d : Directive) (value : Data) : Failure :=
  ⟨.type, '%' :: d.letter :: " format: a real number is required, not " ++ value.typeName⟩

def needsInteger (d : Directive) (value : Data) : Failure :=
  ⟨.type, '%' :: d.letter :: " format: an integer is required, not " ++ value.typeName⟩

/-- The whole part of a number. -/
def truncate (x : Float) : Except Failure Int :=
  match Decimal.Exact.ofFloat x with
  | .notANumber => .error ⟨.value, "cannot convert float NaN to integer"⟩
  | .infinite _ => .error ⟨.overflow, "cannot convert float infinity to integer"⟩
  | .finite negative mantissa exponent =>
    let r := Decimal.Ratio.ofBinary mantissa exponent
    let whole : Int := (r.num / r.den : Nat)
    .ok (if negative then -whole else whole)

def integerOf (d : Directive) : Data → Except Failure Int
  | .int n => .ok n
  | .bool b => .ok (if b then 1 else 0)
  | .real x => if d.letter ∈ ['d', 'i', 'u'] then truncate x else .error (needsInteger d (.real x))
  | value => .error (if d.letter ∈ ['d', 'i', 'u'] then needsNumber d value
      else needsInteger d value)

def writeInteger (d : Directive) (n : Int) : Text :=
  let base := if d.letter = 'o' then 8 else if d.letter ∈ ['x', 'X'] then 16 else 10
  let digits := Nat.toDigits base n.natAbs
  let digits := List.replicate (d.precision.getD 0 - digits.length) '0' ++ digits
  let digits := if d.letter = 'X' then digits.map Char.toUpper else digits
  let mark : Text :=
    if d.alternate then
      match d.letter with
      | 'o' => "0o"
      | 'x' => "0x"
      | 'X' => "0X"
      | _ => []
    else []
  pad d true (signOf d (n < 0) ++ mark) digits

/-- An integer as an exact value. -/
def exactOfInt (n : Int) : Decimal.Exact :=
  .finite (n < 0) n.natAbs 0

def exactOf : Data → Except Failure Decimal.Exact
  | .int n => .ok (exactOfInt n)
  | .bool b => .ok (exactOfInt (if b then 1 else 0))
  | .real x => .ok (.ofFloat x)
  | value => .error ⟨.type, "must be real number, not " ++ value.typeName⟩

/-- A point behind the whole digits, if there is none. -/
def withPoint (body : Text) : Text :=
  if '.' ∈ body then body
  else body.takeWhile Char.isDigit ++ '.' :: body.dropWhile Char.isDigit

def writeReal (d : Directive) (value : Decimal.Exact) : Text :=
  let capital (text : Text) := if d.letter.isUpper then text.map Char.toUpper else text
  match value with
  | .notANumber => pad d true (signOf d false) (capital "nan")
  | .infinite negative => pad d true (signOf d negative) (capital "inf")
  | .finite negative mantissa exponent =>
    let r := Decimal.Ratio.ofBinary mantissa exponent
    let places := d.precision.getD 6
    let body :=
      match d.letter.toLower with
      | 'f' => Decimal.fixed r places
      | 'e' => Decimal.scientific r places
      | _ => Decimal.general r places d.alternate
    pad d true (signOf d negative) (capital (if d.alternate then withPoint body else body))

def writeText (d : Directive) (text : Text) : Text :=
  pad d false [] (match d.precision with | some n => text.take n | none => text)

/-- A literal in ASCII, other characters escaped. -/
def asciiLiteral (value : Data) : Text :=
  value.literal.flatMap fun c =>
    let n := c.toNat
    if n < 128 then [c]
    else if n < 256 then backslash :: 'x' :: hex 2 n
    else if n < 65536 then backslash :: 'u' :: hex 4 n
    else backslash :: 'U' :: hex 8 n

def writeChar (d : Directive) : Data → Except Failure Text
  | .text [c] => .ok (pad d false [] [c])
  | .int n =>
    if 0 ≤ n && n < 1114112 then .ok (pad d false [] [Char.ofNat n.toNat])
    else .error ⟨.overflow, "%c arg not in range(0x110000)"⟩
  | .bool b => .ok (pad d false [] [Char.ofNat (if b then 1 else 0)])
  | _ => .error ⟨.type, "%c requires int or char"⟩

def write (d : Directive) (value : Data) : Except Failure Text :=
  match d.letter with
  | 's' => .ok (writeText d value.display)
  | 'r' => .ok (writeText d value.literal)
  | 'a' => .ok (writeText d (asciiLiteral value))
  | 'c' => writeChar d value
  | letter =>
    if letter ∈ ['d', 'i', 'u', 'o', 'x', 'X'] then (integerOf d value).map (writeInteger d)
    else (exactOf value).map (writeReal d)

def letters : Text := "srcadiuoxXeEfFgG"

/-- The text up to the parenthesis that closes the key, with nested pairs. -/
def readKey : Nat → Text → Option (Text × Text)
  | _, [] => none
  | depth, c :: rest =>
    if c = ')' then
      match depth with
      | 0 => some ([], rest)
      | inner + 1 => (readKey inner rest).map fun found => (c :: found.1, found.2)
    else
      (readKey (if c = '(' then depth + 1 else depth) rest).map fun found =>
        (c :: found.1, found.2)

def readFlags (d : Directive) : Text → Directive × Text
  | [] => (d, [])
  | c :: rest =>
    if c = '-' then readFlags { d with leftAligned := true } rest
    else if c = '+' then readFlags { d with plus := true } rest
    else if c = ' ' then readFlags { d with space := true } rest
    else if c = '#' then readFlags { d with alternate := true } rest
    else if c = '0' then readFlags { d with zeros := true } rest
    else (d, c :: rest)

/-- A number in the template, or a star that takes it from the arguments. Numbers from `bound` on
are too large. -/
def readAmount (bound : Nat) (tooLarge : Failure) (rest : Text) (arguments : Arguments) :
    Except Failure (Int × Text × Arguments) := do
  let (amount, rest, arguments) ←
    match rest with
    | '*' :: rest => do
      let (value, arguments) ← next arguments
      match value with
      | .int n => .ok (n, rest, arguments)
      | .bool b => .ok (if b then 1 else 0, rest, arguments)
      | _ => .error ⟨.type, "* wants int"⟩
    | _ =>
      let digits := rest.takeWhile Char.isDigit
      .ok ((Text.digitsValue digits : Int), rest.drop digits.length, arguments)
  if amount.natAbs < bound then .ok (amount, rest, arguments) else .error tooLarge

def widthTooLarge : Failure := ⟨.value, "width too big"⟩

def precisionTooLarge : Failure := ⟨.value, "precision too big"⟩

/-- A key in parentheses makes its value the next one. -/
def readSelection (rest : Text) (arguments : Arguments) : Except Failure (Text × Arguments) :=
  match rest, arguments with
  | '(' :: _, .listed _ => .error needsRecord
  | '(' :: rest, .keyed _ _ =>
    match readKey 0 rest with
    | none => .error ⟨.value, "incomplete format key"⟩
    | some (key, rest) => (select key arguments).map fun arguments => (rest, arguments)
  | _, _ => .ok (rest, arguments)

def readPrecision (rest : Text) (arguments : Arguments) :
    Except Failure (Option Nat × Text × Arguments) :=
  match rest with
  | '.' :: rest => do
    let (precision, rest, arguments) ← readAmount 0x80000000 precisionTooLarge rest arguments
    .ok (some precision.toNat, rest, arguments)
  | _ => .ok (none, rest, arguments)

/-- A mark of size before the letter means nothing. -/
def skipSizeMark : Text → Text
  | [] => []
  | c :: rest => if c ∈ ['h', 'l', 'L'] then rest else c :: rest

def unsupported (letter : Char) (index : Nat) : Failure :=
  let shown : Char := if 31 ≤ letter.toNat && letter.toNat ≤ 126 then letter else '?'
  ⟨.value, "unsupported format character '" ++ [shown] ++ "' (0x" ++
    Nat.toDigits 16 letter.toNat ++ ") at index " ++ Text.ofNat index⟩

/-- One directive behind its percent sign: what it writes, and what is left. `length` is the length
of the whole template. -/
def directive (length : Nat) (arguments : Arguments) (rest : Text) :
    Except Failure (Text × Text × Arguments) := do
  let (rest, arguments) ← readSelection rest arguments
  let (d, rest) := readFlags { letter := '%' } rest
  let (width, rest, arguments) ← readAmount 0x8000000000000000 widthTooLarge rest arguments
  let (precision, rest, arguments) ← readPrecision rest arguments
  match skipSizeMark rest with
  | [] => .error incomplete
  | letter :: rest =>
    let (value, arguments) ← next arguments
    if letter ∈ letters then
      let text ← write
        { d with
          width := width.natAbs
          leftAligned := d.leftAligned || width < 0
          precision
          letter } value
      .ok (text, rest, arguments)
    else .error (unsupported letter (length - rest.length - 1))

/-- Fills in a template from left to right. -/
def fill (length : Nat) : Nat → Arguments → Text → Except Failure (Text × Arguments)
  | 0, arguments, _ => .ok ([], arguments)
  | _ + 1, arguments, [] => .ok ([], arguments)
  | fuel + 1, arguments, '%' :: '%' :: rest => do
    let (more, arguments) ← fill length fuel arguments rest
    .ok ('%' :: more, arguments)
  | fuel + 1, arguments, c :: rest =>
    if c = '%' then do
      let (text, rest, arguments) ← directive length arguments rest
      let (more, arguments) ← fill length fuel arguments rest
      .ok (text ++ more, arguments)
    else do
      let (more, arguments) ← fill length fuel arguments rest
      .ok (c :: more, arguments)

/-- A single record of arguments is looked up by key. -/
def argumentsOf : List Data → Arguments
  | [.record (field :: fields)] =>
    .keyed (.record (field :: fields)) (some (.record (field :: fields)))
  | items => .listed items

/-- The message: a template without arguments stands for itself. -/
def message (template : Text) (items : List Data) : Except Failure Text :=
  if items.isEmpty then .ok template
  else do
    let (text, arguments) ← fill template.length (template.length + 1) (argumentsOf items) template
    match arguments with
    | .listed (_ :: _) => .error tooMany
    | _ => .ok text

end Template

end InlineCompletion.Log
