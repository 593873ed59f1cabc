import Composer.Json.Reader
import Composer.Response.Extraction
import Composer.Stream.Event

/-!
Reading an event stream back. The stream arrives in chunks that may be cut anywhere; whole lines are
decoded as they complete. Lines that are no frames, and frames that hold no event, are passed over;
only an error event, or a payload that cannot be converted at all, stops the reader. How deeply a
payload may be nested is given with every call, since it depends on the stack that the caller has
left.

The text of the reader is what the attempt so far has produced: deltas are appended, and a clear
starts over.
-/

namespace Composer

inductive StreamFailure where
  /-- The stream reported an error, or ended without any text. -/
  | reported (message : WideText)
  /-- A payload holds a whole number with too many digits. -/
  | oversizedInteger
  /-- A payload is nested too deeply. -/
  | tooDeep
  deriving DecidableEq, Repr

namespace Event

/-- The event on a line; nothing when the line is no frame or its payload is no event. -/
def ofLine (depth : Nat) (line : Text) : Except StreamFailure (Option HeardEvent) :=
  match Text.after? frameStart line with
  | none => .ok none
  | some rest =>
    let payload := rest.strip
    if payload = doneWord then .ok (some .done)
    else
      match Json.read (Json.message depth) payload with
      | .error (.malformed _ _) => .ok none
      | .error (.oversizedInteger _) => .error .oversizedInteger
      | .error (.tooDeep _) => .error .tooDeep
      | .ok found =>
        match HeardEvent.ofJson found with
        | .sound e => .ok (some e)
        | .faulty _ => .ok none

end Event

/-- The state of a reader: the line that is not complete yet, the strings since the last clear, the
last status, and whether the end was seen. -/
structure StreamReader where
  pending : Text
  chunks : List WideText
  status : Option WideText
  done : Bool
  deriving DecidableEq, Repr, Inhabited

namespace StreamReader

def fresh : StreamReader := ⟨[], [], none, false⟩

def text (r : StreamReader) : WideText := r.chunks.flatten

/-- What is reported when a stream ends without any text. -/
def emptyMessage : Text :=
  "Empty response from AI. The model may be overloaded - please try again."

/-- What is reported for an error without a message. -/
def unnamedMessage : Text := "stream error"

/-- The reader after an event, or the failure that an error event is. -/
def apply (r : StreamReader) : HeardEvent → Except StreamFailure StreamReader
  | .delta s => .ok { r with chunks := r.chunks ++ [s] }
  | .status s => .ok { r with status := some s }
  | .clear => .ok { r with chunks := [] }
  | .error message =>
    .error (.reported (if message.isEmpty then unnamedMessage.widen else message))
  | .done => .ok { r with done := true }

variable (depth : Nat)

/-- The reader after one line, and the event on it if there is one. A failure leaves the reader as
it was. -/
def feedLine (r : StreamReader) (line : Text) :
    StreamReader × Except StreamFailure (Option HeardEvent) :=
  match Event.ofLine depth (Text.trimEndWhere (· == '\r') line) with
  | .error failure => (r, .error failure)
  | .ok none => (r, .ok none)
  | .ok (some e) =>
    match r.apply e with
    | .ok r' => (r', .ok (some e))
    | .error failure => (r, .error failure)

/-- The reader after several lines, and the events on them. Lines after a failure are lost. -/
def feedLines (r : StreamReader) :
    List Text → StreamReader × Except StreamFailure (List HeardEvent)
  | [] => (r, .ok [])
  | line :: rest =>
    match r.feedLine depth line with
    | (r', .error failure) => (r', .error failure)
    | (r', .ok found) =>
      match feedLines r' rest with
      | (r'', .error failure) => (r'', .error failure)
      | (r'', .ok events) => (r'', .ok (found.toList ++ events))

/-- The reader after a chunk, and the events on the lines that it completes. The beginning of an
incomplete line is kept for the next chunk. -/
def feed (r : StreamReader) (chunk : Text) :
    StreamReader × Except StreamFailure (List HeardEvent) :=
  let pieces := (r.pending ++ chunk).lines
  feedLines depth { r with pending := pieces.getLastD [] } pieces.dropLast

/-- The reader after several chunks, and the events on the lines that they complete. Chunks after a
failure are lost. -/
def feedAll (r : StreamReader) :
    List Text → StreamReader × Except StreamFailure (List HeardEvent)
  | [] => (r, .ok [])
  | chunk :: rest =>
    match r.feed depth chunk with
    | (r', .error failure) => (r', .error failure)
    | (r', .ok events) =>
      match feedAll r' rest with
      | (r'', .error failure) => (r'', .error failure)
      | (r'', .ok more) => (r'', .ok (events ++ more))

/-- The end of the stream: a line that was left incomplete still counts, and what the text gives is
the result. What is no text is taken for its legible form, in which the fences, the words and the
spaces are the same. -/
def finish (r : StreamReader) : StreamReader × Except StreamFailure Extraction :=
  let (r', outcome) : StreamReader × Except StreamFailure Unit :=
    if r.pending.isEmpty then (r, .ok ())
    else
      match r.feedLine depth r.pending with
      | (r', .error failure) => (r', .error failure)
      | (r', .ok _) => ({ r' with pending := [] }, .ok ())
  match outcome with
  | .error failure => (r', .error failure)
  | .ok () =>
    if r'.text.legible.isBlankText then (r', .error (.reported emptyMessage.widen))
    else (r', .ok (Extraction.parse r'.text.legible))

end StreamReader

end Composer
