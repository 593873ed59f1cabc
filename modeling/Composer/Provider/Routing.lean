import Composer.Settings
import Composer.Text.Letter

/-!
Which provider serves a model, and which credential it is given. A credential whose shape belongs to
the other provider is refused; it is never passed over in favour of a later one.
-/

namespace Composer

inductive Provider where
  | anthropic
  | openai
  deriving DecidableEq, Repr, Inhabited

namespace Provider

def name : Provider → Text
  | anthropic => "anthropic"
  | openai => "openai"

def displayName : Provider → Text
  | anthropic => "Anthropic"
  | openai => "OpenAI"

/-- The name of a provider inside the names of variables. -/
def variableName : Provider → Text
  | anthropic => "ANTHROPIC"
  | openai => "OPENAI"

/-- The provider that serves a model, told from the beginning of the model's name. -/
def ofModel (model : Text) : Provider :=
  if model.startsWith "gpt-" || model.startsWith "o1" || model.startsWith "o3" then openai
  else anthropic

/-- The provider that a credential belongs to, when its beginning tells. -/
def ofKey? (key : Text) : Option Provider :=
  if key.startsWith "sk-ant-" then some anthropic
  else if key.startsWith "sk-" then some openai
  else none

/-- A model's name with its provider in front, unless the name has a part in front already. -/
def routedModel (model : Text) (p : Provider) : Text :=
  if model.contains ['/'] then model else p.name ++ '/' :: model

/-- The variables that may hold a credential for a provider, in the order in which they are
tried. -/
def keyVariables (p : Provider) : List Text :=
  ["AUDIAL_" ++ p.variableName ++ "_API_KEY", p.variableName ++ "_API_KEY", "AUDIAL_API_KEY"]

end Provider

/-- Why a request is refused before anything is asked of a provider. -/
inductive RequestError where
  | missingCredential
  | credentialMismatch (selected given : Provider)
  | missingPrompt
  deriving DecidableEq, Repr

namespace RequestError

def message : RequestError → Text
  | missingCredential =>
    "No API key configured. Add one in Settings or set AUDIAL_API_KEY (or provider-specific env var)."
  | credentialMismatch selected given =>
    "You selected an " ++ selected.displayName ++ " model but provided an " ++ given.displayName ++
      " API key. Please update your API key in Settings to match the selected model."
  | missingPrompt => "missing prompt"

def statusCode : RequestError → Nat
  | missingCredential => 401
  | _ => 400

end RequestError

namespace Provider

/-- The first credential that is not blank: that of the request, else those of the environment. -/
def credential? (p : Provider) (requestKey : Option Text) (env : Environment) : Option Text :=
  ((requestKey.getD [] :: p.keyVariables.map fun name => (env.lookup name).getD []).map
    Text.strip).find? (!·.isEmpty)

/-- The credential for a provider, as far as it does not belong to another. -/
def credential (p : Provider) (requestKey : Option Text) (env : Environment) :
    Except RequestError Text :=
  match p.credential? requestKey env with
  | none => .error .missingCredential
  | some key =>
    match ofKey? key with
    | none => .ok key
    | some given => if given = p then .ok key else .error (.credentialMismatch p given)

end Provider

end Composer
