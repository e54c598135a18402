import InlineCompletion.Text.Letter

/-!
What the text around the cursor tells about the place. The facts are independent: a string in a
log call in an object literal has three of them.
-/

namespace InlineCompletion

/-!
Conventions of a whole file that its extension announces.
-/

inductive FileCategory where
  | markup
  | stylesheet
  | structuredData
  | query
  | none
  deriving DecidableEq, Repr

namespace FileCategory

def name : FileCategory → Text
  | markup => "markup"
  | stylesheet => "stylesheet"
  | structuredData => "structured_data"
  | query => "query"
  | none => "none"

/-- An extension in lower case without leading dots. -/
def normalize (extension : Text) : Text :=
  (Text.lower extension).dropWhile (· = '.')

def isMarkdown (extension : Text) : Bool :=
  (["md", "markdown", "mdx"] : List Text).contains (normalize extension)

def isHtml (extension : Text) : Bool :=
  (["html", "htm", "xhtml"] : List Text).contains (normalize extension)

def ofExtension (extension : Text) : FileCategory :=
  let extension := normalize extension
  if isMarkdown extension || isHtml extension then markup
  else if (["css", "scss", "sass", "less"] : List Text).contains extension then stylesheet
  else if (["json", "jsonc", "json5"] : List Text).contains extension then structuredData
  else if (["sql", "psql", "mysql", "pgsql"] : List Text).contains extension then query
  else none

end FileCategory

/-!
What the text around the cursor tells about the place. The facts are independent: a string in a
log call in an object literal has three of them.
-/

structure Classification where
  inObjectLiteral : Bool := false
  inLogCall : Bool := false
  inStringLiteral : Bool := false
  inFunctionHeader : Bool := false
  inClassHeader : Bool := false
  inImport : Bool := false
  inComment : Bool := false
  inControlHeader : Bool := false
  category : FileCategory := .none
  deriving DecidableEq, Repr

namespace Classification

/-- Places whose suggestions are never kept for later. -/
def isVolatile (c : Classification) : Bool :=
  c.inObjectLiteral || c.inLogCall || c.inStringLiteral

/-- The names of the facts with their truth, in their fixed order. -/
def flags (c : Classification) : List (Text × Bool) :=
  [("in_object_literal", c.inObjectLiteral), ("in_log_call", c.inLogCall),
    ("in_string_literal", c.inStringLiteral), ("in_function_header", c.inFunctionHeader),
    ("in_class_header", c.inClassHeader), ("in_import", c.inImport),
    ("in_comment", c.inComment), ("in_control_structure_header", c.inControlHeader)]

end Classification

end InlineCompletion
