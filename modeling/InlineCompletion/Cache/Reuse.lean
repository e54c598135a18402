import InlineCompletion.Cache.Basic
import InlineCompletion.Context.Classification
import InlineCompletion.Document.Basic
import InlineCompletion.Text.Character

/-!
The last check before a stored completion is used again. It catches what the key leaves open; an
entry that fails it is passed over and stays in the cache.
-/

namespace InlineCompletion.Reuse

/-- Whether the completion stands after the cursor already, by its first line. -/
def isPresent (completion rest : Text) : Bool :=
  let completion := Text.trim completion
  let rest := Text.trim rest
  !completion.isEmpty && !rest.isEmpty && Text.startsWith rest (Text.firstLine completion)

/-- Whether the entry must not be used at this place. -/
def isUnsafe (entry : CacheEntry τ) (document : Document) (position : Position)
    (facts : Classification) : Bool :=
  facts.isVolatile ||
    (!entry.typed.isEmpty && entry.typed ≠ document.before position) ||
    isPresent entry.completion (document.after position)

end InlineCompletion.Reuse
