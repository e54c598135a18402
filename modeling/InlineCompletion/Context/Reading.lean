import InlineCompletion.Context.Classification
import InlineCompletion.Data.Validated

/-!
A classification given from outside, as a record of the facts that hold.
-/

namespace InlineCompletion

namespace FileCategory

def all : List FileCategory :=
  [.markup, .stylesheet, .structuredData, .query, .none]

def read : Data → Except Mismatch FileCategory
  | .text t => ((all.find? fun category => category.name = t).elim
      (.error (.oneOf (all.map name))) .ok)
  | _ => .error (.oneOf (all.map name))

end FileCategory

/-- Facts that are not named do not hold. -/
def Classification.read (source : Data) : Validated Classification :=
  let flag (key : Text) : Validated Bool := Validated.field source key Coerce.bool false
  Classification.mk <$> flag "in_object_literal" <*> flag "in_log_call"
    <*> flag "in_string_literal" <*> flag "in_function_header" <*> flag "in_class_header"
    <*> flag "in_import" <*> flag "in_comment" <*> flag "in_control_structure_header"
    <*> Validated.field source "file_category" FileCategory.read .none

end InlineCompletion
