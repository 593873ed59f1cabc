import Composer.Prompt.System
import Composer.Prompt.Task
import Composer.Provider.Routing

/-!
The checks that a request passes before anything is asked of a provider, and what is asked then. The
checks are made in a fixed order: the credential first, then the prompt; the first that fails is
reported. A request that passes them can still not be prepared when the policy has a limit that
cannot be written.
-/

namespace Composer

/-- A request that passed all checks, with everything that is needed to ask a provider. -/
structure PreparedRequest where
  request : Request
  model : Text
  provider : Provider
  apiKey : Text
  systemPrompt : Text
  userPrompt : Text
  deriving DecidableEq, Repr, Inhabited

/-- Why a request is not prepared: it is refused, or the instructions for it cannot be written. -/
inductive PreparationError where
  | refused (error : RequestError)
  /-- A limit of the policy has too many digits. -/
  | oversizedLimit
  deriving DecidableEq, Repr

def PreparationError.message : PreparationError → Text
  | refused e => e.message
  | oversizedLimit =>
    "Exceeds the limit (" ++ Text.ofNat Reading.digitLimit ++
      " digits) for integer string conversion; use sys.set_int_max_str_digits() to increase the limit"

namespace PreparedRequest

/-- The model of a request, or the default where it names none. -/
def modelOf (settings : Settings) (r : Request) : Text :=
  match r.model with
  | some (c :: name) => c :: name
  | _ => settings.defaultModel

/-- What is asked for a request whose prompt has no white space at its ends: a change of the code to
edit, with the recent conversation, or else a new composition. -/
def firstPrompt (settings : Settings) (references : Option ReferenceSource) (r : Request)
    (prompt : Text) : Text :=
  match r.codeToEdit? with
  | some code => Prompt.edit code prompt r.chatHistory settings.chatHistoryLimit
  | none => Prompt.new prompt references

/-- The request prepared, or the first reason why it is not. -/
def ofRequest (settings : Settings) (env : Environment) (references : Option ReferenceSource)
    (r : Request) : Except PreparationError PreparedRequest :=
  let model := modelOf settings r
  let provider := Provider.ofModel model
  match provider.credential r.apiKey env with
  | .error e => .error (.refused e)
  | .ok key =>
    let prompt := (r.prompt.getD []).strip
    if prompt.isEmpty then .error (.refused .missingPrompt)
    else
      match Prompt.system? settings.policy with
      | none => .error .oversizedLimit
      | some system =>
        .ok {
          request := r
          model := model
          provider := provider
          apiKey := key
          systemPrompt := system
          userPrompt := firstPrompt settings references r prompt }

/-- What is asked after an attempt had issues: the prompt with the issues, around the code to edit
if there is some. -/
def retryPrompt (p : PreparedRequest) (references : Option ReferenceSource) (issues : List Text) :
    Text :=
  let again := Prompt.retry (p.request.prompt.getD []) issues
  match p.request.codeToEdit? with
  | some code => Prompt.edit code again [] Prompt.editHistoryLimit
  | none => Prompt.new again references

end PreparedRequest

end Composer
