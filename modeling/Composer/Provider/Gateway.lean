import Composer.Provider.Answer

/-!
One request through the gateway, whose strings are read one at a time. Nothing is asked before the
first string is wanted; from then on the reader stands behind the last one it was given, until the
answer ends or breaks off or the reader closes it. An answer that was given is closed on every way
out, as far as it can be closed at all, and what goes wrong then is of no consequence.
-/

namespace Composer.Gateway

/-- Why a conversation breaks down: something was raised, or the options make up no call. -/
inductive Breakdown where
  | raised (error : Raised)
  | invalidOptions (faults : List Fault)

/-- Where the reader of an answer stands. -/
inductive TextStream where
  | unasked
  /-- Behind a string, with these chunks to come. -/
  | suspended (rest : List Chunk) (closing : Closing)
  | over

/-- A conversation with the gateway: the calls that were made, the strings that were received, why
it broke down if it did, how often each answer was closed, and whether the gateway's own logging was
turned off. -/
structure Conversation where
  stream : TextStream := .unasked
  calls : List Call := []
  received : List WideText := []
  breakdown : Option Breakdown := none
  closings : List Nat := []
  quiet : Bool := false

/-- What the reader of an answer may do. -/
inductive Move where
  | pull
  | close
  deriving DecidableEq, Repr

namespace Conversation

/-- Nothing more is read, and there was no answer to be closed. -/
def finish (c : Conversation) : Conversation := { c with stream := .over }

/-- The way out of an answer. -/
def leave (c : Conversation) : Closing → Conversation
  | .absent => c.finish
  | .succeeds => { c.finish with closings := c.closings.map (· + 1) }
  -- the failure is noted and dropped
  | .fails => { c.finish with closings := c.closings.map (· + 1) }

def breakDown (c : Conversation) (why : Breakdown) : Conversation :=
  { c with breakdown := some why }

/-- Chunks are taken up to the next one with a string. -/
def resume (c : Conversation) (closing : Closing) : List Chunk → Conversation
  | [] => c.leave closing
  | .raised error :: _ => (c.breakDown (.raised (reported error))).leave closing
  | .value v kind :: rest =>
    match chunkText kind v with
    | .error message =>
      (c.breakDown (.raised (reported (.other "TypeError" message)))).leave closing
    | .ok t =>
      if t.isEmpty then c.resume closing rest
      else { c with received := c.received ++ [t], stream := .suspended rest closing }

/-- The call is made, and its answer is read up to the first string. -/
def ask (c : Conversation) (s : Script) (call : Call) : Conversation :=
  let c := { c with calls := c.calls ++ [call] }
  match s.answer 0 with
  | .raised error => (c.breakDown (.raised (reported error))).finish
  | .chunks chunks => { c with closings := c.closings ++ [0] }.resume s.closing chunks

/-- The next string is wanted. -/
def pull (gateway : Option Script) (request : Checked Call) (c : Conversation) : Conversation :=
  match c.stream with
  | .over => c
  | .suspended rest closing => c.resume closing rest
  | .unasked =>
    match gateway with
    | none => (c.breakDown (.raised notInstalled)).finish
    | some s =>
      let c := { c with quiet := !s.frozen }
      match request with
      | .faulty faults => (c.breakDown (.invalidOptions faults)).finish
      | .sound call => c.ask s call

/-- The reader wants no more. -/
def close (c : Conversation) : Conversation :=
  match c.stream with
  | .suspended _ closing => c.leave closing
  | _ => c.finish

def step (gateway : Option Script) (request : Checked Call) (c : Conversation) :
    Move → Conversation
  | .pull => c.pull gateway request
  | .close => c.close

/-- What a reader has brought about. -/
def run (gateway : Option Script) (request : Checked Call) (moves : List Move) : Conversation :=
  moves.foldl (step gateway request) {}

end Conversation

def Answer.size : Answer → Nat
  | raised _ => 0
  | chunks given => given.length

/-- A conversation in which up to `limit` strings are read, or all of them, and which is closed
then. -/
def converse (gateway : Option Script) (model : Text) (o : Options) (systemPrompt userPrompt : Text)
    (limit : Option Nat) : Conversation :=
  let all := gateway.elim 0 fun s => (s.answer 0).size
  .run gateway (Call.ofOptions model o systemPrompt userPrompt)
    (List.replicate (limit.getD (all + 1)) .pull ++ [.close])

end Composer.Gateway
