import Composer.Field.Reading
import Composer.Provider.Routing

/-!
Calls of the gateway through which providers are reached. A call has a fixed set of arguments and
may have further ones that do not touch these.
-/

namespace Composer.Gateway

def reserved : List Text := ["api_key", "max_tokens", "messages", "model", "stream"]

/-- What a caller may choose beside the model, as loosely typed values. -/
structure Options where
  apiKey : Json
  maxTokens : Json
  temperature : Json
  extra : List (Text × Json)
  provider : Option Provider
  deriving Inhabited

inductive OptionsError where
  /-- There is no option of this name. -/
  | unknown
  /-- Further arguments would replace reserved ones. -/
  | overrides (names : List Text)
  deriving DecidableEq, Repr

/-- The sentence that reports an attempt to replace reserved arguments. -/
def OptionsError.message : OptionsError → Text
  | unknown => []
  | overrides names => "litellm_kwargs cannot override: " ++ Text.joinWith ", " names

def Options.ofMembers (ms : List (Text × Json)) : Except OptionsError Options :=
  let extra :=
    match Json.member? "litellm_kwargs" ms with
    | some (.obj more) => more
    | _ => []
  let taken := reserved.filter fun name => extra.any fun m => m.1 = name
  let names : List Text := ["api_key", "max_tokens", "temperature", "litellm_kwargs", "provider"]
  if ms.any fun m => !names.contains m.1 then .error .unknown
  else if !taken.isEmpty then .error (.overrides taken)
  else
    .ok {
      apiKey := (Json.member? "api_key" ms).getD .null
      maxTokens := (Json.member? "max_tokens" ms).getD (.int 4096)
      temperature := (Json.member? "temperature" ms).getD .null
      extra := extra
      provider :=
        match Json.member? "provider" ms with
        | some (.str p) => if p = Provider.openai.name then some .openai
          else if p = Provider.anthropic.name then some .anthropic else none
        | _ => none }

def isVoid : Json → Bool
  | .null => true
  | .bool b => !b
  | .int n => n == 0
  | .float x => x.isZero
  | .str t => t.isEmpty
  | .brokenStr _ => false
  | .arr items => items.isEmpty
  | .obj ms => ms.isEmpty

structure Call where
  model : Text
  systemPrompt : Text
  userPrompt : Text
  maxTokens : Int
  temperature : Option Binary64
  apiKey : Option Text
  extra : List (Text × Json)
  deriving Inhabited

namespace Call

def modelOf (model : Text) (o : Options) : Text :=
  Provider.routedModel model (o.provider.getD (.ofModel model))

/-- The call for two prompts, or the faults of the options. An empty credential is none. -/
def ofOptions (model : Text) (o : Options) (systemPrompt userPrompt : Text) : Checked Call :=
  (fun maxTokens temperature apiKey =>
      (⟨modelOf model o, systemPrompt, userPrompt, maxTokens, temperature, apiKey, o.extra⟩ : Call))
    <$> (Field.integer o.maxTokens).under (.key "max_tokens")
    <*> (Field.optional (Field.number fun n => (Binary64.ofInt n).isFinite) o.temperature).under
      (.key "temperature")
    <*> (if isVoid o.apiKey then .sound none
      else (Field.optional Field.text o.apiKey).under (.key "api_key"))

def message (role content : Text) : Json := .obj [("role", .str role), ("content", .str content)]

def fixedArguments (c : Call) : List (Text × Json) :=
  [("model", .str c.model),
    ("messages", .arr [message "system" c.systemPrompt, message "user" c.userPrompt]),
    ("max_tokens", .int c.maxTokens), ("stream", .bool true)]

/-- The arguments that are there only when they are set. -/
def optionalArguments (c : Call) : List (Text × Json) :=
  (c.temperature.toList.map fun x => (("temperature" : Text), Json.float x)) ++
    c.apiKey.toList.map fun key => (("api_key" : Text), Json.str key)

/-- All arguments by name; further ones come last and may replace an optional one. -/
def arguments (c : Call) : List (Text × Json) :=
  c.extra.foldl (fun ms m => Json.setMember m.1 m.2 ms) (c.fixedArguments ++ c.optionalArguments)

end Call

end Composer.Gateway
