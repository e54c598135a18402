import InlineCompletion.Data.Coerce
import InlineCompletion.Failure

/-!
Records read field by field: all that is wrong is gathered in the order of the fields, unless a
field fails in a way that ends the reading.
-/

namespace InlineCompletion

structure Fault where
  field : Text
  mismatch : Mismatch
  deriving DecidableEq, Repr

def Fault.message (fault : Fault) : Text :=
  fault.field ++ ": " ++ fault.mismatch.message

inductive Validated (α : Type) where
  | valid (value : α)
  | invalid (faults : List Fault)
  | failed (failure : Failure)

namespace Validated

variable {α β : Type}

def map (f : α → β) : Validated α → Validated β
  | valid value => valid (f value)
  | invalid faults => invalid faults
  | failed failure => failed failure

/-- A function and its argument from fields one after the other. -/
def apply (f : Validated (α → β)) (x : Validated α) : Validated β :=
  match f, x with
  | failed failure, _ => failed failure
  | _, failed failure => failed failure
  | invalid first, invalid second => invalid (first ++ second)
  | invalid faults, valid _ => invalid faults
  | valid _, invalid faults => invalid faults
  | valid f, valid x => valid (f x)

instance : Applicative Validated where
  pure := valid
  map := map
  seq f x := apply f (x ())

def failureOf (faults : List Fault) : Failure :=
  ⟨.validation, Text.join "; " (faults.map Fault.message)⟩

def toExcept : Validated α → Except Failure α
  | valid value => .ok value
  | invalid faults => .error (failureOf faults)
  | failed failure => .error failure

/-- The reading of one field. -/
def ofField (field : Text) : Except Mismatch α → Validated α
  | .ok value => valid value
  | .error mismatch => invalid [⟨field, mismatch⟩]

/-- The field of a record, or the default if the record lacks it. -/
def field (source : Data) (key : Text) (read : Data → Except Mismatch α) (default : α) :
    Validated α :=
  match source.field? key with
  | none => valid default
  | some value => ofField key (read value)

def requiredField (source : Data) (key : Text) (read : Data → Except Mismatch α) : Validated α :=
  match source.field? key with
  | none => invalid [⟨key, .missing⟩]
  | some value => ofField key (read value)

end Validated

end InlineCompletion
