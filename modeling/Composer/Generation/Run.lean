import Composer.Generation.Task

/-!
Reading a task: some of its events, after which the reader stops, or all of them. A run that reads
everything ends with the code, with the failure of the task, or with what was raised.
-/

namespace Composer

/-- An event as it was read, and the stage of the task right after. -/
structure Observed where
  event : Event
  stage : Stage
  deriving DecidableEq, Repr, Inhabited

/-- What was read: the events in order, what was raised after them if anything was, and the task and
the cursor after that. -/
structure Readout where
  observed : List Observed
  raised : Option TaskFault
  task : Task
  cursor : Cursor

inductive RunResult where
  | code (outcome : Extraction)
  | failed (error : TaskError)
  | raised (fault : TaskFault)
  deriving DecidableEq, Repr, Inhabited

namespace Task

def read : (limit : Nat) → Task → Cursor → Readout
  | 0, t, cursor => ⟨[], none, t, cursor⟩
  | limit + 1, t, cursor =>
    match t.pull cursor with
    | (.event e, t', cursor') =>
      let r := read limit t' cursor'
      { r with observed := ⟨e, t'.stage⟩ :: r.observed }
    | (.exhausted, t', cursor') => ⟨[], none, t', cursor'⟩
    | (.raised fault, t', cursor') => ⟨[], some fault, t', cursor'⟩

/-- What is raised by a reader that gives the answer when it is closed: it must not send an
event. -/
def closingFault : Pulled → Option TaskFault
  | .event _ => some .closingAnswered
  | .raised fault => some fault
  | .exhausted => none

/-- Up to `limit` events read by a new cursor, which then stops. -/
def readThenClose (limit : Nat) (t : Task) : Readout :=
  let r := read limit t .unstarted
  let (answer, t', cursor') := r.task.close r.cursor
  { r with raised := r.raised <|> closingFault answer, task := t', cursor := cursor' }

/-- As many pulls as two attempts can need: their texts, and five events beside them. -/
def pullLimit (t : Task) : Nat := (t.deliveries 0).size + (t.deliveries 1).size + 6

def drain (t : Task) : Readout := read t.pullLimit t .unstarted

def resultOf (r : Readout) : RunResult :=
  match r.raised with
  | some fault => .raised fault
  | none =>
    match r.task.error, r.task.outcome with
    | some e, _ => .failed e
    | none, some outcome => .code outcome
    | none, none => .raised .alreadyRun

/-- All events read and dropped: the code, or why there is none. -/
def run (t : Task) : RunResult := resultOf t.drain

/-- The frames that a server sends for a task. Whatever is raised is reported in a last frame,
without saying what it was. -/
def sentEvents (r : Readout) : List Event :=
  r.observed.map (·.event) ++ if r.raised.isSome then [.error "stream error"] else []

def body (t : Task) : Text := Event.frames (sentEvents t.drain)

/-- What a provider was asked, one prompt for each stream that was requested. -/
def askedPrompts (t : Task) : List Text :=
  (t.attempts.filter (·.playback.isRequested)).map (·.userPrompt)

def closedStreams (t : Task) : Nat := t.attempts.countP (·.playback.isClosed)

end Task

end Composer
