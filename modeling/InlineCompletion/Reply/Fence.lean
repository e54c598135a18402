import InlineCompletion.Text.Alphanumeric

/-!
Code fences of three backticks, perhaps with a language tag after the opening one.
-/

namespace InlineCompletion.Fence

open Text

def fence : Text := [backtick, backtick, backtick]

def isTagChar (c : Char) : Bool :=
  isWordChar c || c = '+' || c = '#' || c = '.' || c = '-'

def dropLineBreak : Text → Text
  | '\n' :: rest => rest
  | text => text

/-- The text before the closing fence. Without one it ends before a line break at the very end. -/
def body : Text → Text
  | [] => []
  | c :: rest =>
    if startsWith (c :: rest) fence || (c :: rest) = ['\n'] then [] else c :: body rest

/-- The code after an opening fence. -/
def codeAfter (rest : Text) : Text :=
  body (dropLineBreak ((rest.dropWhile isTagChar).dropWhile fun c => c = ' ' || c = '\t'))

/-- The code of the first fenced block, or the whole text if there is no fence. -/
def extract (text : Text) : Text :=
  match indexOf? fence text with
  | none => text
  | some index => codeAfter (text.drop (index + fence.length))

end InlineCompletion.Fence
