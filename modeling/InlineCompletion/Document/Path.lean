import InlineCompletion.Text.Basic

/-!
File paths with slashes. Empty and single-dot components say nothing and are dropped; two dots
stay. Exactly two leading slashes are a root of their own.
-/

namespace InlineCompletion

structure Path where
  root : Text
  components : List Text
  deriving DecidableEq, Repr

namespace Path

def rootOf (text : Text) : Text :=
  match text.takeWhile (· = '/') with
  | [] => []
  | ['/', '/'] => "//"
  | _ => "/"

def ofText (text : Text) : Path where
  root := rootOf text
  components := (Text.splitOn '/' text).filter fun part => !part.isEmpty && part ≠ ['.']

/-- A path without root and components is the current directory. -/
def toText (path : Path) : Text :=
  if path.root.isEmpty && path.components.isEmpty then "."
  else path.root ++ Text.join "/" path.components

def name (path : Path) : Text :=
  path.components.getLastD []

def parent (path : Path) : Path :=
  { path with components := path.components.dropLast }

/-- What follows the last dot of a name, unless that dot begins or ends the name. -/
def extensionOf (name : Text) : Option Text :=
  match Text.splitOn '.' name with
  | [] => none
  | [_] => none
  | pieces =>
    let last := pieces.getLastD []
    if last.isEmpty || last.length + 1 = name.length then none else some last

def extension (path : Path) : Option Text :=
  extensionOf path.name

end Path

end InlineCompletion
