import InlineCompletion.Client.Server
import InlineCompletion.Settings.Basic

/-!
The providers of models. Each is registered under a name with the path of the class of its adapter,
and the path is looked up when the provider is used.
-/

namespace InlineCompletion

/-- Names of modules that can be loaded, with the classes in them. -/
def loadableModules : List (Text × List Text) :=
  [("ollamacopilot", []), ("ollamacopilot.version", []), ("ollamacopilot.llm", []),
    ("ollamacopilot.llm.adapters", []),
    ("ollamacopilot.llm.adapters.ollama_adapter", ["OllamaAdapter"])]

def adapterPath : Text := "ollamacopilot.llm.adapters.ollama_adapter.OllamaAdapter"

namespace Providers

/-- Paths by name. -/
abbrev Registry := List (Text × Text)

def initial : Registry :=
  [(Adapter.providerName, adapterPath)]

def register (registry : Registry) (name path : Text) : Registry :=
  (registry.filter fun entry => entry.1 ≠ name) ++ [(name, path)]

def textLe : Text → Text → Bool
  | [], _ => true
  | _ :: _, [] => false
  | a :: as, b :: bs => if a = b then textLe as bs else a.toNat < b.toNat

/-- The names in order. -/
def available (registry : Registry) : List Text :=
  (registry.map Prod.fst).mergeSort textLe

def unsupported (registry : Registry) (name : Text) : Failure :=
  ⟨.unsupportedProvider, "Unsupported LLM provider: " ++ Text.quoted name ++ ". Available: " ++
    Text.commaSeparated (available registry)⟩

/-- The names of a module and of all that contain it, the outermost first. -/
def enclosing (pieces : List Text) : List Text :=
  (List.range pieces.length).map fun n => Text.join "." (pieces.take (n + 1))

/-- The class that a path names: a module, a dot and a name. -/
def loadClass (path : Text) : Except Failure Text :=
  match (Text.splitOn '.' path).reverse with
  | name :: piece :: pieces =>
    let modulePieces := (piece :: pieces).reverse
    let moduleName := Text.join "." modulePieces
    let missing := (enclosing modulePieces).find? fun n => (loadableModules.lookup n).isNone
    match missing with
    | some n => .error ⟨.moduleNotFound, "No module named " ++ Text.quoted n⟩
    | none =>
      if ((loadableModules.lookup moduleName).getD []).contains name then .ok name
      else
        .error ⟨.missingAttribute, "module " ++ Text.quoted moduleName ++ " has no attribute " ++
          Text.quoted name⟩
  | _ => .error ⟨.value, "not enough values to unpack (expected 2, got 1)"⟩

/-- An adapter and the name of its class. -/
structure Created where
  className : Text
  adapter : Adapter
  deriving DecidableEq, Repr

/-- The adapter of a provider, or of the one in the settings. Only the provider of the local server
takes its host from the settings. -/
def create (registry : Registry) (settings : Settings) (provider model host : Option Text) :
    Except Failure Created := do
  let name :=
    match provider with
    | some (c :: rest) => c :: rest
    | _ => settings.provider
  match registry.lookup name with
  | none => .error (unsupported registry name)
  | some path =>
    let className ← loadClass path
    let fallback := if name = Adapter.providerName then settings.baseUrl else defaultHost
    .ok ⟨className, { model := model.getD settings.model, host := host.getD fallback }⟩

end Providers

end InlineCompletion
