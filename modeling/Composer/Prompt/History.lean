import Composer.Request

/-!
The conversation so far, as it is shown to the model: the first message, for context, and the most
recent ones.
-/

namespace Composer.History

/-- At most `limit` messages, but never none of several: all of them if they fit, else the first and
the most recent. -/
def truncate (limit : Nat) (chat : List ChatMessage) : List ChatMessage :=
  if chat.length ≤ limit then chat
  else
    match chat with
    | [] => []
    | first :: rest => first :: rest.drop (rest.length - (limit - 1))

/-- Truncation to a limit of either sign. Below zero only the first message is left, and there has
to be one. -/
def truncate? (limit : Int) (chat : List ChatMessage) : Option (List ChatMessage) :=
  if 0 ≤ limit then some (truncate limit.toNat chat) else chat.head?.map ([·])

/-- What is shown of a message: of an assistant's message with code only that there was code. -/
def shown (m : ChatMessage) : Text :=
  match m.role, m.code with
  | .assistant, some (_ :: _) => "[generated strudel code]"
  | _, _ => m.content

def line (m : ChatMessage) : Text := m.role.name ++ ": " ++ shown m

/-- The conversation under a heading; nothing when there was none. -/
def format (chat : List ChatMessage) : Text :=
  if chat.isEmpty then []
  else "\nprevious conversation:\n" ++ Text.unlines (chat.map line) ++ "\n"

end Composer.History
