import InlineCompletion.Text.Basic

/-!
The instructions a prompt can give, with what each one mentions, and their wording.
-/

namespace InlineCompletion

inductive MarkdownElement where
  | table
  | codeBlock
  | heading
  | listItem
  | general
  deriving DecidableEq, Repr

def MarkdownElement.text : MarkdownElement → Text
  | table => "table"
  | codeBlock => "code block"
  | heading => "heading"
  | listItem => "list item"
  | general => "general markdown"

inductive JsonSchema where
  | package
  | compilerOptions
  | editorSettings
  | general
  deriving DecidableEq, Repr

def JsonSchema.text : JsonSchema → Text
  | package => "package.json"
  | compilerOptions => "tsconfig.json"
  | editorSettings => "VS Code settings"
  | general => "generic JSON"

inductive SqlStatement where
  | select
  | insert
  | update
  | delete
  | createTable
  | alterTable
  | general
  deriving DecidableEq, Repr

def SqlStatement.text : SqlStatement → Text
  | select => "SELECT"
  | insert => "INSERT"
  | update => "UPDATE"
  | delete => "DELETE"
  | createTable => "CREATE TABLE"
  | alterTable => "ALTER TABLE"
  | general => "SQL"

/-- What a string literal is for. -/
inductive StringPurpose where
  | error
  | message
  | url
  | name
  | email
  | phone
  | address
  | description
  | title
  | identifier
  deriving DecidableEq, Repr

namespace StringPurpose

def keyword : StringPurpose → Text
  | error => "error"
  | message => "message"
  | url => "url"
  | name => "name"
  | email => "email"
  | phone => "phone"
  | address => "address"
  | description => "description"
  | title => "title"
  | identifier => "identifier"

def text : StringPurpose → Text
  | error => "Complete this error message with a descriptive error explanation."
  | message => "Complete this message with appropriate text for user communication."
  | url => "Complete this URL with a valid path structure."
  | name => "Complete this name string with a realistic person name."
  | email => "Complete this email with a valid email address format."
  | phone => "Complete this phone number with a valid format."
  | address => "Complete this address with a realistic street address."
  | description => "Complete this description with appropriate descriptive text."
  | title => "Complete this title with a concise and meaningful title."
  | identifier => "Complete this ID with an appropriate identifier format."

end StringPurpose

/-- What is known about a string literal: its purpose, else its variable, else nothing. -/
inductive StringTopic where
  | purpose (purpose : StringPurpose)
  | forVariable (name : Text)
  | unknown
  deriving DecidableEq, Repr

def StringTopic.text : StringTopic → Text
  | purpose p => p.text
  | forVariable name =>
    "Complete this string with appropriate content for a variable named '" ++ name ++ "'."
  | unknown => "Complete this string with appropriate content based on the context."

inductive Instruction where
  | markdown (element : MarkdownElement)
  | htmlTag
  | htmlAttribute
  | htmlContent
  | cssProperty (name : Text)
  | cssSelector
  | cssRule
  | json (schema : JsonSchema)
  | sql (statement : SqlStatement)
  | comment (language body : Text)
  | imports (language : Text) (identifiers : List Text)
  | function (language name purpose : Text)
  | classBody (language name : Text)
  | control (language keyword : Text)
  | logMessage
  | logArguments (names : List Text)
  | stringLiteral (topic : StringTopic)
  | property (owner : Text) (existing : List Text) (indent : Text) (candidates : List Text)
  | generic (language languageHint frameworkHint : Text) (indentWidth : Nat)
  deriving DecidableEq, Repr

/-- A list with commas, or the given word for an empty one. -/
def listedOr (nothing : Text) (items : List Text) : Text :=
  match Text.commaSeparated items with
  | [] => nothing
  | text => text

namespace Instruction

def text : Instruction → Text
  | markdown element =>
    "Complete this " ++ element.text ++ " in Markdown.\n" ++
    "Suggest appropriate content that follows Markdown formatting rules."
  | htmlTag => "Complete this HTML tag.\nSuggest appropriate attributes for this tag."
  | htmlAttribute =>
    "Complete this HTML attribute value.\nSuggest an appropriate value for this attribute."
  | htmlContent => "Complete this HTML content.\nSuggest appropriate tags or content."
  | cssProperty name =>
    "Complete this CSS property value.\nProperty: " ++ name ++
    "\nSuggest an appropriate value for this CSS property."
  | cssSelector =>
    "Complete this CSS selector.\nSuggest an appropriate selector based on the context."
  | cssRule => "Complete this CSS rule.\nSuggest appropriate properties and values."
  | json schema =>
    "Complete this " ++ schema.text ++ " content.\n" ++
    "Suggest valid JSON that follows the " ++ schema.text ++ " schema.\n" ++
    "Ensure proper formatting with correct commas and quotes."
  | sql statement =>
    "Complete this " ++ statement.text ++ " statement.\n" ++
    "Suggest appropriate SQL syntax for this " ++ statement.text ++ " operation.\n" ++
    "Use proper SQL formatting with correct clauses and conditions."
  | comment language body =>
    "Generate code based on this comment in " ++ language ++ ":\n\"" ++ body ++ "\"\n" ++
    "Implement a solution that addresses the comment's requirements.\n" ++
    "Provide only the implementation code."
  | imports language identifiers =>
    "Complete this import statement in " ++ language ++ ".\n" ++
    "Consider these identifiers that may need importing: " ++
    listedOr "none detected" identifiers ++
    "\nSuggest appropriate module paths based on the context."
  | function language name purpose =>
    "Complete this function declaration in " ++ language ++ ".\nFunction name: " ++ name ++
    "\nPurpose: " ++ purpose ++
    "\nSuggest appropriate parameters, return type, and function body."
  | classBody language name =>
    "Complete this class declaration in " ++ language ++ ".\nClass name: " ++ name ++
    "\nSuggest appropriate properties, methods, and constructor.\n" ++
    "Follow standard patterns for " ++ language ++ " classes."
  | control language keyword =>
    "Complete this " ++ keyword ++ " structure in " ++ language ++ ".\n" ++
    "Suggest an appropriate body for this control structure.\n" ++
    "Follow common " ++ language ++ " conventions for " ++ keyword ++ " blocks."
  | logMessage =>
    "Complete the string inside this logging call.\n" ++
    "Provide a meaningful message based on the context.\n" ++
    "Do not add closing quotes or parentheses."
  | logArguments names =>
    "Complete the arguments of this logging call with appropriate values.\n" ++
    "Consider logging these variables that appear to be in scope: " ++
    listedOr "none found" names ++
    "\nYou can suggest string messages, variables, or expressions.\n" ++
    "Do not add closing parentheses."
  | stringLiteral topic => topic.text ++ "\nDo not include quotes in your response."
  | property owner existing indent candidates =>
    "Complete only the properties inside the object literal for '" ++ owner ++ "'.\n" ++
    "Do not repeat the variable declaration or object braces.\n" ++
    "Do not suggest these existing properties: " ++ listedOr "none" existing ++ ".\n" ++
    "Use this exact indentation: \"" ++ indent ++ "\" for each property.\n" ++
    "Start each property on a new line.\n" ++
    "Include the property name, its value, and a trailing comma.\n" ++
    "Consider the variable name and context when suggesting properties.\n" ++
    "Provide only one property at a time.\n" ++
    "Suggested properties you can use (choose one): " ++ Text.commaSeparated candidates
  | generic language languageHint frameworkHint indentWidth =>
    "Complete the following " ++ language ++ " code. " ++ languageHint ++ " " ++
    frameworkHint ++ "\nMaintain the current indentation level (" ++ Text.ofNat indentWidth ++
    " spaces).\nProvide only the completion."

end Instruction

end InlineCompletion
