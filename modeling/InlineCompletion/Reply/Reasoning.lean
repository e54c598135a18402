import InlineCompletion.Text.Pattern

/-!
Reasoning blocks and wrapper tags in the text of a model, and their removal.
-/

namespace InlineCompletion.Reasoning

open Pattern

def blockTags : List Text := ["think", "thinking", "reasoning", "thought"]

def wrapperTags : List Text :=
  blockTags ++ (["answer", "code", "completion", "output", "response", "cursor"] : List Text)

def oneOfTags (tags : List Text) : Pattern Unit :=
  choice (tags.map anyCase)

/-- The same letter in either case. -/
def sameName (a b : Char) : Bool :=
  (Text.lowerChar a).head? = (Text.lowerChar b).head?

def openTag : Pattern (Cursor × Cursor) := do
  literal "<"
  let tag ← captured (oneOfTags blockTags)
  literal ">"
  pure tag

def closeTag : Pattern Unit := do
  literal "</"
  oneOfTags blockTags
  literal ">"

/-- From an opening tag to the nearest closing tag of the same name. -/
def block : Pattern Unit := do
  let tag ← openTag
  fewest fun _ => true
  literal "</"
  literalBy sameName (tag.1.between tag.2)
  literal ">"

/-- From the start of the text to the first closing tag. -/
def danglingEnd : Pattern Unit := do
  atStart
  fewest fun _ => true
  closeTag

/-- From an opening tag to the end of the text. -/
def danglingStart : Pattern Unit := do
  let _ ← openTag
  many fun _ => true
  atEnd

def wrapperTag : Pattern Unit := do
  literal "<"
  optional (literal "/")
  oneOfTags wrapperTags
  wordEdge
  many (· ≠ '>')
  literal ">"

/-- The text without reasoning and without stray tags. -/
def strip (text : Text) : Text :=
  eraseAll wrapperTag (eraseAll danglingStart (eraseAll danglingEnd (eraseAll block text)))

end InlineCompletion.Reasoning
