import InlineCompletion.Prompt.Choice
import InlineCompletion.Settings.Basic

/-!
The prompt that a completion would send, made without asking a model.
-/

namespace InlineCompletion.Prompt

/-- The prompt for a place that has been classified. -/
def ofPlace (settings : Settings) (facts : Classification) (document : Document)
    (position : Position) : Prompt :=
  Place.prompt
    ⟨facts, document, position,
      document.excerpt position settings.linesAbove settings.linesBelow⟩

def preview (settings : Settings) (document : Document) (position : Position) : Prompt :=
  ofPlace settings (classify document position settings.scanWindow) document position

end InlineCompletion.Prompt
