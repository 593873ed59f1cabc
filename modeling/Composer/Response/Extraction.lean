import Composer.Code.Structure
import Composer.Field.Reading
import Composer.Response.Escapes
import Composer.Response.Fence

/-!
Taking one piece of pattern code out of what a model wrote. Prose around a fenced block is ignored,
and a text without fences is accepted only when it looks like pattern code; two blocks are one too
many. `artifact` finds the code, `finishedArtifact` also checks its structure and undoes its
escapes.
-/

namespace Composer

inductive ExtractionFault where
  | emptyResponse
  | noBlock
  | severalBlocks (count : Nat)
  | emptyBlock
  | structural (fault : StructureFault)
  deriving DecidableEq, Repr

/-- The sentence that reports why a response gives no code. -/
def ExtractionFault.message : ExtractionFault → Text
  | emptyResponse => "empty response"
  | noBlock => "no code block found in response"
  | severalBlocks count =>
    "found " ++ Text.ofNat count ++ " code blocks, expected exactly 1"
  | emptyBlock => "code block is empty"
  | structural fault => fault.message

namespace Response

def signs (t : Text) : List Bool :=
  [Measure.setsTempo t,
    t.contains Measure.voiceMarker,
    Text.anywhere (fun u => (Call.named? "note" u).isSome) t,
    Text.anywhere (fun u => (Call.named? "s" u).isSome) t,
    Text.anywhere (fun u => (Call.method? "gain" u).isSome) t]

/-- Whether a text shows at least two signs of pattern code. -/
def looksLikeCode (t : Text) : Bool := decide (2 ≤ (signs t).count true)

/-- The one piece of code in a response, without white space at its ends. -/
def artifact (response : Text) : Except ExtractionFault Text :=
  let trimmed := response.strip
  if trimmed.isEmpty then .error .emptyResponse
  else
    match Fence.blocks trimmed with
    | [] => if looksLikeCode trimmed then .ok trimmed else .error .noBlock
    | [block] => if block.strip.isEmpty then .error .emptyBlock else .ok block.strip
    | blocks => .error (.severalBlocks blocks.length)

/-- The one piece of code in a response, checked for structure and freed of escapes. -/
def finishedArtifact (response : Text) : Except ExtractionFault Text :=
  match artifact response with
  | .error fault => .error fault
  | .ok code =>
    match structureFault? code with
    | some fault => .error (.structural fault)
    | none => .ok (Escapes.undo code)

/-- The lines of code that are not blank, without white space at their ends. -/
def significantLines (code : Text) : List Text :=
  (code.lines.filter fun line => !line.isBlankText).map Text.strip

/-- Whether two pieces of code differ at most in white space at the ends of lines and in blank
lines. -/
def isUnchanged (old new : Text) : Bool := significantLines old == significantLines new

end Response

/-- What became of a response: code, or the reason why there is none. Either may keep the
response. -/
inductive Extraction where
  | success (code : Text) (response : Option Text)
  | failure (error : Text) (response : Option Text)
  deriving DecidableEq, Repr

namespace Extraction

def code? : Extraction → Option Text
  | success code _ => some code
  | failure _ _ => none

/-- What an attempt at a response gives; a failure keeps the response as it was. -/
def ofAttempt (response : Text) : Except ExtractionFault Text → Extraction
  | .ok code => .success code none
  | .error fault => .failure fault.message (some response)

def extract (response : Text) : Extraction := ofAttempt response (Response.artifact response)

/-- The code of a response, checked and freed of escapes. -/
def parse (response : Text) : Extraction := ofAttempt response (Response.finishedArtifact response)

/-- An extraction given as an object. Code and error exclude each other, and which of them is there
has to agree with the truth value. -/
def ofJson (found : Json) : Checked Extraction :=
  (Field.members .modelType found).andThen fun ms =>
    ((fun ok code error response (_ : Unit) => (ok, code, error, response))
        <$> Field.required "success" Field.flag ms
        <*> Field.defaulted "code" none (Field.optional Field.text) ms
        <*> Field.defaulted "error" none (Field.optional Field.text) ms
        <*> Field.defaulted "raw_response" none (Field.optional Field.text) ms
        <*> Field.onlyNamed ["success", "code", "error", "raw_response"] ms).andThen fun
      | (true, some code, none, response) => .sound (.success code response)
      | (false, none, some error, response) => .sound (.failure error response)
      | _ => .refuse .valueError found

end Extraction

end Composer
