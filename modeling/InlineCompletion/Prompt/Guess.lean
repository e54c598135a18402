import InlineCompletion.Prompt.Instruction
import InlineCompletion.Text.Letter
import InlineCompletion.Text.Pattern

/-!
What names and lines hint at: what a string literal is for, and which properties an object may have.
-/

namespace InlineCompletion.StringPurpose

open Pattern

/-!
What a string literal is for: words on its line decide, then words in the name of its variable.
-/

/-- A line says what its string is for when one of the words occurs in either case. -/
def lineWords : List (StringPurpose × List Text) :=
  [(error, ["error"]), (message, ["message", "msg"]), (url, ["url"]), (name, ["name"]),
    (email, ["email"]), (phone, ["phone"]), (address, ["address"]),
    (description, ["description", "desc"]), (title, ["title"])]

def mentions (line : Text) (words : List Text) : Bool :=
  occursIn (choice (words.map anyCase)) line

/-- The word `id` alone, after an underscore or as the last part of a camel-case name. -/
def identifierWord : Pattern Unit :=
  choice
    [do wordEdge; literal "id"; wordEdge,
    do literal "_id"; wordEdge,
    do char Char.isLower; literal "Id"; wordEdge,
    do wordEdge; literal "ID"; wordEdge]

def ofLine (line : Text) : Option StringPurpose :=
  match lineWords.find? fun entry => mentions line entry.2 with
  | some entry => some entry.1
  | none => if occursIn identifierWord line then some identifier else none

def variableWords : List (StringPurpose × List Text) :=
  [(name, ["name"]), (email, ["email"]), (phone, ["phone"]), (address, ["address"]),
    (description, ["description", "desc"]), (title, ["title"]), (identifier, ["id"]),
    (url, ["url"]), (message, ["message", "msg"])]

def ofVariable (variableName : Text) : Option StringPurpose :=
  let lowered := Text.lower variableName
  (variableWords.find? fun entry => entry.2.any (Text.contains lowered)).map (·.1)

def guess (line : Text) (variableName : Option Text) : Option StringPurpose :=
  (ofLine line).or (variableName.bind ofVariable)

end InlineCompletion.StringPurpose

/-!
Property names to suggest, by what the name of the object's variable is about.
-/

namespace InlineCompletion.Candidates

def user : List Text :=
  ["id", "name", "email", "username", "firstName", "lastName", "age", "address", "phone",
    "created", "updated", "isActive"]

def config : List Text :=
  ["enabled", "value", "type", "description", "default", "options", "version", "path", "timeout"]

def time : List Text :=
  ["created", "updated", "timestamp", "date", "time", "timezone", "duration"]

def general : List Text :=
  ["id", "name", "type", "value", "description", "status", "enabled"]

def ofVariable (variableName : Text) : List Text :=
  let lowered := Text.lower variableName
  let about (words : List Text) := words.any (Text.contains lowered)
  if about ["user", "account"] then user
  else if about ["config", "setting"] then config
  else if about ["time", "date"] then time
  else general

end InlineCompletion.Candidates
