import Composer.Field.Reading
import Composer.Text.Blank

/-!
Requests for a composition: what is asked for, whether something is to be edited, the conversation
so far, and which model and credential to use.
-/

namespace Composer

inductive Role where
  | user
  | assistant
  deriving DecidableEq, Repr, Inhabited

def Role.name : Role → Text
  | user => "user"
  | assistant => "assistant"

/-- A message of a conversation. A message of the assistant may carry the code that it gave. -/
structure ChatMessage where
  role : Role
  content : Text
  code : Option Text
  deriving DecidableEq, Repr, Inhabited

/-- A message given as an object; unknown members are passed over, and `kind` is the fault of what
is no object. -/
def ChatMessage.ofJson (kind : FaultKind) (found : Json) : Checked ChatMessage :=
  (Field.members kind found).andThen fun ms =>
    ChatMessage.mk
      <$> Field.required "role"
        (Field.choice [(Role.user.name, .user), (Role.assistant.name, .assistant)]) ms
      <*> Field.required "content" Field.text ms
      <*> Field.defaulted "code" none (Field.optional Field.text) ms

/-- Whether a new composition is asked for or a change. -/
inductive Mode where
  | new
  | edit
  deriving DecidableEq, Repr, Inhabited

def Mode.name : Mode → Text
  | new => "new"
  | edit => "edit"

structure Request where
  prompt : Option Text
  mode : Mode
  currentCode : Option Text
  chatHistory : List ChatMessage
  model : Option Text
  apiKey : Option Text
  deriving DecidableEq, Repr, Inhabited

namespace Request

/-- A request given as an object; unknown members are passed over, and `kind` is the fault of what
is no object. -/
def ofJson (kind : FaultKind) (found : Json) : Checked Request :=
  (Field.members kind found).andThen fun ms =>
    Request.mk
      <$> Field.defaulted "prompt" none (Field.optional Field.text) ms
      <*> Field.defaulted "mode" .new
        (Field.choice [(Mode.new.name, .new), (Mode.edit.name, .edit)]) ms
      <*> Field.defaultedEither "currentCode" "current_code" none (Field.optional Field.text) ms
      <*> Field.defaultedEither "chatHistory" "chat_history" []
        (Field.list (ChatMessage.ofJson kind)) ms
      <*> Field.defaulted "model" none (Field.optional Field.text) ms
      <*> Field.defaultedEither "apiKey" "api_key" none (Field.optional Field.text) ms

/-- The code to edit: there is some only in edit mode, and only when it is not blank. -/
def codeToEdit? (r : Request) : Option Text :=
  match r.mode, r.currentCode with
  | .edit, some code => if code.isBlankText then none else some code
  | _, _ => none

/-- The mode in which a request is served: without code to edit it asks for a new composition. -/
def effectiveMode (r : Request) : Mode := if r.codeToEdit?.isSome then .edit else .new

end Request

end Composer
