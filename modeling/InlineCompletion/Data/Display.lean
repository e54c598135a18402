import InlineCompletion.Data.Basic
import InlineCompletion.Decimal.Writing
import InlineCompletion.Failure
import InlineCompletion.Text.Quoted

/-!
Values as text: texts stand bare on their own and quoted inside of other values.
-/

namespace InlineCompletion.Data

def boolText (b : Bool) : Text :=
  if b then "True" else "False"

mutual

def literal : Data → Text
  | null => "None"
  | bool b => boolText b
  | int n => Text.ofInt n
  | real x => Decimal.floatText x
  | text t => Text.quoted t
  | list items => '[' :: literalItems items ++ "]"
  | record fields => Text.openBrace :: literalFields fields ++ [Text.closeBrace]

def literalItems : List Data → Text
  | [] => []
  | [item] => literal item
  | item :: items => literal item ++ ", " ++ literalItems items

def literalFields : List (Text × Data) → Text
  | [] => []
  | [(key, value)] => Text.quoted key ++ ": " ++ literal value
  | (key, value) :: fields =>
    Text.quoted key ++ ": " ++ literal value ++ ", " ++ literalFields fields

end

def display : Data → Text
  | text t => t
  | value => literal value

/-- The name of the value's type in messages about wrong types. -/
def typeName : Data → Text
  | null => "NoneType"
  | bool _ => "bool"
  | int _ => "int"
  | real _ => "float"
  | text _ => "str"
  | list _ => "list"
  | record _ => "dict"

/-!
Taking apart values that should have a certain shape. A value of another shape fails with a message
that names its type.
-/

/-- The value under a key that has to be there. -/
def item (key : Text) : Data → Except Failure Data
  | record fields => (fields.lookup key).elim (.error ⟨.key, key⟩) .ok
  | list _ => .error ⟨.type, "list indices must be integers or slices, not str"⟩
  | text _ => .error ⟨.type, "string indices must be integers, not 'str'"⟩
  | value => .error ⟨.type, Text.singleQuote :: value.typeName ++ "' object is not subscriptable"⟩

/-- The value under a key, or null. -/
def get (key : Text) : Data → Except Failure Data
  | record fields => .ok (ofOption (fields.lookup key))
  | value =>
    .error
      ⟨.missingAttribute, Text.singleQuote :: value.typeName ++ "' object has no attribute 'get'"⟩

/-- The values of a list; a record has its keys and a text its characters. -/
def elements : Data → Except Failure (List Data)
  | list items => .ok items
  | record fields => .ok (fields.map fun field => text field.1)
  | text t => .ok (t.map fun c => text [c])
  | value => .error ⟨.type, Text.singleQuote :: value.typeName ++ "' object is not iterable"⟩

end InlineCompletion.Data
