import Composer.Text.Letter

/-!
What goes wrong at a provider. Whatever is raised there is sorted by its message into three classes
that a user can act on: the credential, the model, or anything else. What was sorted as a matter of
the credential or of the model keeps its class and its message.
-/

namespace Composer

inductive ProviderError where
  | auth (message : Text)
  | model (message : Text)
  | inference (message : Text)
  deriving DecidableEq, Repr, Inhabited

def ProviderError.message : ProviderError → Text
  | auth m => m
  | model m => m
  | inference m => m

/-- What is raised while a provider is asked: a failure that is sorted already, or any other, known
by the name of its kind. -/
inductive Raised where
  | sorted (error : ProviderError)
  | other (kind message : Text)
  deriving DecidableEq, Repr, Inhabited

namespace Raised

def kindName : Raised → Text
  | sorted (.auth _) => "ProviderAuthError"
  | sorted (.model _) => "ProviderModelError"
  | sorted (.inference _) => "LLMInferenceError"
  | other kind _ => kind

def message : Raised → Text
  | sorted e => e.message
  | other _ m => m

/-- The message, or the name of the kind when there is none. -/
def description (r : Raised) : Text := if r.message.isEmpty then r.kindName else r.message

end Raised

namespace ProviderError

/-- What in a message points to the credential, in lower case. -/
def authMarkers : List Text :=
  ["authentication", "invalid api key", "invalid x-api-key", "401", "unauthorized"]

/-- What in a message points to the model, in lower case. -/
def modelMarkers : List Text := ["model", "not found", "does not exist"]

/-- The failure that a message is about; what points to the credential outweighs the rest. -/
def ofMessage (m : Text) : ProviderError :=
  if authMarkers.any m.lower.contains then
    auth "This API key does not exist. Please check your API key in Settings."
  else if modelMarkers.any m.lower.contains then
    model ("Model error: " ++ m ++ ". Please select a valid model in Settings.")
  else inference m

def classify : Raised → ProviderError
  | .sorted (.auth m) => auth m
  | .sorted (.model m) => model m
  | r => ofMessage r.description

end ProviderError

end Composer
