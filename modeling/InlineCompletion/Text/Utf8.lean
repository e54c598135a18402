import InlineCompletion.Failure

/-!
Text as bytes in UTF-8. Reading is strict and says where it failed, and why.
-/

namespace InlineCompletion.Utf8

def encode (text : Text) : List UInt8 :=
  text.flatMap String.utf8EncodeChar

inductive Fault where
  | startByte
  | continuation
  | truncated
  deriving DecidableEq, Repr

def Fault.text : Fault → Text
  | startByte => "invalid start byte"
  | continuation => "invalid continuation byte"
  | truncated => "unexpected end of data"

/-- A fault, the bytes before it and how many bytes it covers. -/
structure DecodeError where
  fault : Fault
  position : Nat
  length : Nat
  byte : Nat
  deriving DecidableEq, Repr

def DecodeError.message (e : DecodeError) : Text :=
  let place : Text :=
    if e.length = 1 then
      " byte 0x" ++ Text.hex 2 e.byte ++ " in position " ++ Text.ofNat e.position
    else
      " bytes in position " ++ Text.ofNat e.position ++ "-" ++
        Text.ofNat (e.position + e.length - 1)
  "'utf-8' codec can't decode" ++ place ++ ": " ++ e.fault.text

def DecodeError.failure (e : DecodeError) : Failure :=
  ⟨.decoding, e.message⟩

def isContinuation (b : Nat) : Bool :=
  128 ≤ b && b < 192

def payload (b : Nat) : Nat :=
  b % 64

/-- The bytes that may follow the first one of three: no number has two forms, and surrogates have
none. -/
def isSecondOfThree (first second : Nat) : Bool :=
  isContinuation second && !(if second < 160 then first = 224 else first = 237)

/-- The bytes that may follow the first one of four. -/
def isSecondOfFour (first second : Nat) : Bool :=
  isContinuation second && !(if second < 144 then first = 240 else first = 244)

/-- The first character and the number of its bytes, or the fault and the number of bytes it
covers. -/
def decodeChar : List Nat → Except (Fault × Nat) (Char × Nat)
  | [] => .error (.truncated, 0)
  | a :: rest =>
    let truncated : Except (Fault × Nat) (Char × Nat) := .error (.truncated, rest.length + 1)
    if a < 128 then .ok (Char.ofNat a, 1)
    else if a < 194 || 245 ≤ a then .error (.startByte, 1)
    else if a < 224 then
      match rest with
      | [] => truncated
      | b :: _ =>
        if isContinuation b then .ok (Char.ofNat (a % 32 * 64 + payload b), 2)
        else .error (.continuation, 1)
    else if a < 240 then
      match rest with
      | [] => truncated
      | b :: rest =>
        if !isSecondOfThree a b then .error (.continuation, 1)
        else
          match rest with
          | [] => truncated
          | c :: _ =>
            if isContinuation c then
              .ok (Char.ofNat ((a % 16 * 64 + payload b) * 64 + payload c), 3)
            else .error (.continuation, 2)
    else
      match rest with
      | [] => truncated
      | b :: rest =>
        if !isSecondOfFour a b then .error (.continuation, 1)
        else
          match rest with
          | [] => truncated
          | c :: rest =>
            if !isContinuation c then .error (.continuation, 2)
            else
              match rest with
              | [] => truncated
              | d :: _ =>
                if isContinuation d then
                  .ok (Char.ofNat (((a % 8 * 64 + payload b) * 64 + payload c) * 64 + payload d), 4)
                else .error (.continuation, 3)

def decodeFrom : Nat → Nat → List Nat → Except DecodeError Text
  | 0, _, _ => .ok []
  | _ + 1, _, [] => .ok []
  | fuel + 1, position, a :: rest =>
    match decodeChar (a :: rest) with
    | .error (fault, length) => .error ⟨fault, position, length, a⟩
    | .ok (c, width) =>
      (decodeFrom fuel (position + width) ((a :: rest).drop width)).map fun text => c :: text

def decode (bytes : List UInt8) : Except DecodeError Text :=
  decodeFrom bytes.length 0 (bytes.map UInt8.toNat)

end InlineCompletion.Utf8
