import Composer.Field.Reading
import Composer.Json.Printer

/-!
The events that a server sends while a composition is made, and their frames. A frame is one line
that starts with `data: `, and an empty line. The end of the stream is framed as a word of its own;
every other event as a JSON object on one line, so no text in it can break the line.

What is sent are texts. What is heard need not be: in a JSON object that another program wrote a
string may be no text, and it is an event all the same.
-/

namespace Composer

/-- An event, with the strings in it as texts or in a wider form. -/
inductive EventOf (σ : Type) where
  | delta (text : σ)
  | status (status : σ)
  | clear
  | error (message : σ)
  | done
  deriving DecidableEq, Repr, Inhabited

/-- An event as it is sent. -/
abbrev Event := EventOf Text

/-- An event as it is heard. -/
abbrev HeardEvent := EventOf WideText

namespace EventOf

variable {σ τ : Type}

def map (f : σ → τ) : EventOf σ → EventOf τ
  | delta text => delta (f text)
  | status s => status (f s)
  | clear => clear
  | error message => error (f message)
  | done => done

/-- The object that an event is written as, given how its strings are. -/
def toJsonBy (write : σ → Json) : EventOf σ → Json
  | delta text =>
    .obj [("type", .str "content_block_delta"), ("delta", .obj [("text", write text)])]
  | status s => .obj [("type", .str "status"), ("status", write s)]
  | clear => .obj [("type", .str "clear")]
  | error message => .obj [("type", .str "error"), ("error", .obj [("message", write message)])]
  | done => .obj [("type", .str "done")]

end EventOf

namespace HeardEvent

def toJson (e : HeardEvent) : Json := e.toJsonBy Json.ofString

def tags : List Text := ["content_block_delta", "status", "clear", "error", "done"]

/-- An object with one member that is a string and no others. -/
def singleString (name : Text) (found : Json) : Checked WideText :=
  (Field.members .modelType found).andThen fun ms =>
    (fun s (_ : Unit) => s) <$> Field.required name Field.string ms <*> Field.onlyNamed [name] ms

def ofTagged (tag : Text) (ms : List (Text × Json)) : Checked HeardEvent :=
  if tag = ("content_block_delta" : Text) then
    (fun s (_ : Unit) => .delta s) <$> Field.required "delta" (singleString "text") ms
      <*> Field.onlyNamed ["type", "delta"] ms
  else if tag = ("status" : Text) then
    (fun s (_ : Unit) => .status s) <$> Field.required "status" Field.string ms
      <*> Field.onlyNamed ["type", "status"] ms
  else if tag = ("clear" : Text) then
    (fun _ => .clear) <$> Field.onlyNamed ["type"] ms
  else if tag = ("error" : Text) then
    (fun s (_ : Unit) => .error s) <$> Field.required "error" (singleString "message") ms
      <*> Field.onlyNamed ["type", "error"] ms
  else
    (fun _ => .done) <$> Field.onlyNamed ["type"] ms

/-- An event given as an object. Its tag decides which members it has; faults of the members are
placed under the tag. -/
def ofJson (found : Json) : Checked HeardEvent :=
  (Field.members .modelAttributesType found).andThen fun ms =>
    match Json.member? "type" ms with
    | none => .refuse .unionTagNotFound found
    | some (.str tag) =>
      if tags.contains tag then (ofTagged tag ms).under (.key tag)
      else .refuse .unionTagInvalid found
    | some _ => .refuse .unionTagInvalid found

end HeardEvent

namespace Event

export EventOf (delta status clear error done)

/-- An event that is sent, as it is heard. -/
def heard (e : Event) : HeardEvent := e.map Text.widen

def toJson (e : Event) : Json := e.toJsonBy Json.str

def frameStart : Text := "data: "

def doneWord : Text := "[DONE]"

def payload : Event → Text
  | done => doneWord
  | e => Json.write e.toJson

def frame (e : Event) : Text := frameStart ++ e.payload ++ [Text.lineFeed, Text.lineFeed]

def frames (events : List Event) : Text := events.flatMap frame

end Event

end Composer
