import InlineCompletion.Text.Basic

/-!
Values whose shape is known only when they arrive: log data, message arguments, replies of a model
server and raw settings.
-/

namespace InlineCompletion

inductive Data where
  | null
  | bool (b : Bool)
  | int (n : Int)
  | real (x : Float)
  | text (t : Text)
  | list (items : List Data)
  | record (fields : List (Text × Data))
  deriving Inhabited

namespace Data

/-- Empty and zero values count as absent. -/
def isTruthy : Data → Bool
  | null => false
  | bool b => b
  | int n => n ≠ 0
  | real x => x != 0.0
  | text t => !t.isEmpty
  | list items => !items.isEmpty
  | record fields => !fields.isEmpty

/-- The value unless it counts as absent. -/
def orElse (value other : Data) : Data :=
  if value.isTruthy then value else other

def field? (key : Text) : Data → Option Data
  | record fields => fields.lookup key
  | _ => none

def ofOption (value : Option Data) : Data :=
  value.getD null

end Data

end InlineCompletion
