import Composer.Provider.Call
import Composer.Provider.Delivery

/-!
What the gateway through which providers are reached answers. An answer is a sequence of chunks, of
which those with a string count. Whatever the gateway raises is reported as a failed inference with
the same message.
-/

namespace Composer.Gateway

/-- A part of an answer: a value, with the name of the type that the objects in it have, or
something raised in its place. -/
inductive Chunk where
  | value (v : Json) (kind : Text)
  | raised (error : Raised)
  deriving Inhabited

inductive Answer where
  | raised (error : Raised)
  | chunks (chunks : List Chunk)
  deriving Inhabited

/-- What happens when an answer is closed; `absent` is an answer that cannot be closed. -/
inductive Closing where
  | succeeds
  | fails
  | absent
  deriving DecidableEq, Repr, Inhabited

/-- A gateway: its answer to each call, counted from zero, how the answers close, and whether it
refuses to have its own logging configured. -/
structure Script where
  answer : Nat → Answer
  closing : Closing
  frozen : Bool
  deriving Inhabited

def part (name : Text) : Json → Json
  | .obj ms => (Json.member? name ms).getD .null
  | _ => .null

/-- The message for a value that has no first item although one is asked for, by the name of its
type. -/
def noItemMessage (kind : Text) : Text := "'" ++ kind ++ "' object is not subscriptable"

/-- The first item of a value; `kind` is the type of objects. -/
def firstItem (kind : Text) : Json → Except Text Json
  | .arr (item :: _) => .ok item
  | .str (c :: _) => .ok (.str [c])
  | .bool _ => .error (noItemMessage "bool")
  | .int _ => .error (noItemMessage "int")
  | .float _ => .error (noItemMessage "float")
  | .obj _ => .error (noItemMessage kind)
  | _ => .ok .null

/-- The string of a chunk, empty when it has none; a chunk whose choices are no sequence is an
error. -/
def chunkText (kind : Text) (chunk : Json) : Except Text WideText :=
  let choices := part "choices" chunk
  let void :=
    match choices with
    | .obj _ => false
    | v => isVoid v
  if void then .ok []
  else
    (firstItem kind choices).map fun choice =>
      (part "content" (part "delta" choice)).string?.getD []

/-- What the gateway raises, as it is reported: a failed inference with the same message. -/
def reported (error : Raised) : Raised := .sorted (.inference error.message)

/-- The strings of an answer up to where it ends or breaks off; chunks without one are passed
over. -/
def textsOf : List Chunk → List WideText × Option Raised
  | [] => ([], none)
  | .raised error :: _ => ([], some (reported error))
  | .value v kind :: rest =>
    match chunkText kind v with
    | .error message => ([], some (reported (.other "TypeError" message)))
    | .ok t =>
      let (texts, ending) := textsOf rest
      (if t.isEmpty then texts else t :: texts, ending)

/-- What a task is delivered. It works on texts, so a string that is none is delivered in its
legible form. -/
def Answer.delivery : Answer → Delivery
  | raised error => .refused (reported error)
  | chunks given => .streamed ((textsOf given).1.map WideText.legible) (textsOf given).2

def notInstalled : Raised := .other "ModelNotAvailableError" "litellm is not installed"

/-- What a gateway that may be missing does with each request. -/
def deliveries : Option Script → Deliveries
  | none => fun _ => .refused notInstalled
  | some s => fun n => (s.answer n).delivery

end Composer.Gateway
