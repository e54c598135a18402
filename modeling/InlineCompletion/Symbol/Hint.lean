import InlineCompletion.Text.Pattern

/-!
One-line hints for a prompt: conventions of the language and of the frameworks in use.
-/

namespace InlineCompletion.Hint

open Pattern

def conventions : List (Text × Text) :=
  [("typescript", "Use TypeScript type annotations where appropriate."),
    ("typescriptreact", "Use TypeScript types and JSX syntax."),
    ("javascript", "Use modern ES6+ syntax."),
    ("javascriptreact", "Use modern ES6+ syntax and JSX."),
    ("python", "Follow PEP 8 conventions."),
    ("go", "Follow idiomatic Go style and handle errors explicitly."),
    ("rust", "Follow idiomatic Rust and respect ownership rules."),
    ("java", "Follow standard Java conventions."),
    ("csharp", "Follow standard C# conventions."),
    ("ruby", "Follow idiomatic Ruby style."),
    ("php", "Follow PSR-12 style.")]

def convention (language : Text) : Text :=
  (conventions.lookup language).getD ("Follow idiomatic " ++ language ++ " style.")

/-- What the text left of the cursor asks for. -/
def situation (typed : Text) (inObjectLiteral : Bool) : List Text :=
  let typed := Text.trimRight typed
  if inObjectLiteral then
    ["The cursor is inside an object literal; complete its properties."]
  else if Text.endsWith typed "=" then ["Complete the right-hand side of the assignment."]
  else if Text.endsWithAny typed ["(", ","] then ["Complete the argument list."]
  else []

def language (language typed : Text) (inObjectLiteral : Bool) : Text :=
  Text.join " " (convention language :: situation typed inObjectLiteral)

def quote : Pattern Unit :=
  char fun c => c = Text.singleQuote || c = Text.doubleQuote

/-- A module imported by its quoted name. -/
def fromModule (module : Text) : Pattern Unit := do
  literal "from"
  someBlanks
  quote
  literal module
  quote

def wordThen (head : Text) (rest : Pattern Unit) : Pattern Unit := do
  wordEdge
  literal head
  rest

def wholeWord (word : Text) : Pattern Unit :=
  wordThen word wordEdge

/-- A package imported by its bare name. -/
def fromPackage (package : Text) : Pattern Unit :=
  wordThen "from" do
    someBlanks
    literal package
    wordEdge

/-- Each framework with the signs of its use. -/
def frameworks : List (Text × List (Pattern Unit)) :=
  [("React",
      [fromModule "react",
        wordThen "use" do oneOfWords ["State", "Effect", "Memo", "Ref"]; literal "(",
        literal "React."]),
    ("Vue", [fromModule "vue", wordThen "defineComponent(" (pure ()), literal "<template>"]),
    ("Angular", [literal "@angular/", literal "@Component("]),
    ("Express",
      [do literal "require("; quote; literal "express"; quote; literal ")",
        fromModule "express",
        wordThen "app." do oneOfWords ["get", "post", "use"]; literal "("]),
    ("Django", [fromPackage "django", wholeWord "models.Model"]),
    ("Flask", [fromPackage "flask", literal "@app.route("]),
    ("FastAPI",
      [fromPackage "fastapi",
        do
          oneOfWords ["@app.", "@router."]
          oneOfWords ["get", "post", "put", "delete"]
          literal "("]),
    ("Spring",
      [literal "org.springframework", literal "@RestController",
        do literal "@Service"; wordEdge])]

def frameworksIn (text : Text) : List Text :=
  (frameworks.filter fun framework => framework.2.any (occursIn · text)).map (·.1)

/-- A hint to follow the frameworks found in the text, empty if there are none. -/
def framework (text : Text) : Text :=
  match frameworksIn text with
  | [] => []
  | found => "The code uses " ++ Text.commaSeparated found ++ "; follow its idioms."

end InlineCompletion.Hint
