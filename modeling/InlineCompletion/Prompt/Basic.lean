import InlineCompletion.Prompt.Instruction

/-!
A prompt: the kind of place it was made for, what it asks and the excerpt it quotes.
-/

namespace InlineCompletion

def systemPrompt : Text :=
  "You are a code completion assistant like GitHub Copilot. " ++
  "Provide direct, contextually relevant code completions. " ++
  "Focus on completing the current line or block while maintaining proper indentation. " ++
  "Never include explanations or comments. " ++
  "Respond only with the code completion itself."

/-- Ends every instruction, so that a reply is bare completion text. -/
def outputContract : Text :=
  "Respond with the completion only: no explanations, no comments about the code, " ++
  "and do not repeat existing declarations."

inductive PromptKind where
  | markdown
  | html
  | stylesheet
  | structuredData
  | query
  | comment
  | imports
  | function
  | classHeader
  | control
  | logCall
  | stringLiteral
  | objectProperty
  | generic
  deriving DecidableEq, Repr

def PromptKind.name : PromptKind → Text
  | markdown => "markdown"
  | html => "html"
  | stylesheet => "stylesheet"
  | structuredData => "structured_data"
  | query => "query"
  | comment => "comment"
  | imports => "import"
  | function => "function"
  | classHeader => "class"
  | control => "control_structure"
  | logCall => "log_call"
  | stringLiteral => "string_literal"
  | objectProperty => "object_property"
  | generic => "generic"

/-- The user message made of an instruction and an excerpt. -/
def renderMessage (instruction excerpt : Text) : Text :=
  instruction ++ "\nContext:\n" ++ excerpt

structure Prompt where
  kind : PromptKind
  instruction : Instruction
  excerpt : Text
  deriving DecidableEq, Repr

namespace Prompt

def instructionText (prompt : Prompt) : Text :=
  prompt.instruction.text ++ '\n' :: outputContract

def render (prompt : Prompt) : Text :=
  renderMessage prompt.instructionText prompt.excerpt

end Prompt

end InlineCompletion
