import Composer.Generation.Prepare
import Composer.Generation.Stage
import Composer.Provider.Delivery
import Composer.Response.Extraction
import Composer.Code.Validation
import Composer.Stream.Event

/-!
A generation task: one request, at most two attempts, and the events that its reader is sent. The
first answer is extracted and validated; if it has issues, the provider is asked a second time and
told about them, and the second answer is taken as it is once it can be extracted.

The events are read one at a time by a cursor. `Task.pull` is one step of reading and `Task.close`
the end of it; several cursors may be set on one task, but only the first that starts reads
anything.
-/

namespace Composer

inductive TaskError where
  | provider (error : ProviderError)
  | extraction (message response : Text)
  deriving DecidableEq, Repr, Inhabited

def TaskError.message : TaskError → Text
  | provider e => e.message
  | extraction m _ => m

inductive TaskFault where
  /-- The events were read before. -/
  | alreadyRun
  /-- A stage cannot follow another. -/
  | invalidTransition (source target : Stage)
  /-- The code cannot be judged. -/
  | validation (error : ValidationError)
  /-- The reader was closed and answered with an event. -/
  | closingAnswered
  deriving DecidableEq, Repr, Inhabited

def TaskFault.message : TaskFault → Text
  | alreadyRun => "a generation task can only be run once"
  | invalidTransition source target =>
    "invalid generation transition " ++ source.name ++ " -> " ++ target.name
  | validation e => e.message
  | closingAnswered => "async generator ignored GeneratorExit"

/-- One attempt: what was asked, the stream of the answer, the texts received so far, and the
judgement on them. -/
structure Attempt where
  number : Nat
  userPrompt : Text
  playback : Playback
  chunks : List Text
  verdict : Option Verdict
  deriving DecidableEq, Repr, Inhabited

def Attempt.text (a : Attempt) : Text := a.chunks.flatten

/-- A generation task. The first four fields never change. -/
structure Task where
  prepared : PreparedRequest
  policy : Policy
  references : Option ReferenceSource
  deliveries : Deliveries
  stage : Stage
  attempts : List Attempt
  outcome : Option Extraction
  error : Option TaskError

inductive Cursor where
  | unstarted
  /-- The newest attempt is being streamed. -/
  | streaming
  /-- The retry was announced. -/
  | announced
  /-- The text so far was cleared for the second attempt. -/
  | cleared
  | over
  deriving DecidableEq, Repr, Inhabited

inductive Pulled where
  | event (e : Event)
  | exhausted
  | raised (fault : TaskFault)
  deriving DecidableEq, Repr, Inhabited

namespace Task

/-- What the status event before a second attempt says. -/
def retryStatus : Text := "simplifying..."

def fresh (prepared : PreparedRequest) (policy : Policy) (references : Option ReferenceSource)
    (deliveries : Deliveries) : Task :=
  ⟨prepared, policy, references, deliveries, .idle, [], none, none⟩

/-- The task for a request that is prepared, with the provider that is set up for it. No provider is
set up for a request that is not. -/
def ofRequest {m : Type → Type} [Monad m] (setUp : PreparedRequest → m Deliveries)
    (settings : Settings) (env : Environment) (references : Option ReferenceSource) (r : Request) :
    m (Except PreparationError Task) :=
  match PreparedRequest.ofRequest settings env references r with
  | .error e => return .error e
  | .ok p => do
    let deliveries ← setUp p
    return .ok (fresh p settings.policy references deliveries)

def finished (t : Task) : Bool := t.stage.isFinal

/-- The task in another stage, if that may follow the one it is in. -/
def advance (t : Task) (target : Stage) : Except TaskFault Task :=
  if target ∈ t.stage.successors then .ok { t with stage := target }
  else .error (.invalidTransition t.stage target)

/-- A step of reading that raises: the reader is at its end. -/
def raise (t : Task) (fault : TaskFault) : Pulled × Task × Cursor := (.raised fault, t, .over)

def advancing (t : Task) (target : Stage) (rest : Task → Pulled × Task × Cursor) :
    Pulled × Task × Cursor :=
  match t.advance target with
  | .ok t' => rest t'
  | .error fault => t.raise fault

/-- The task with a new attempt, whose stream is not asked for yet. -/
def addAttempt (t : Task) (userPrompt : Text) : Task :=
  { t with
    attempts := t.attempts ++
      [⟨t.attempts.length + 1, userPrompt, .waiting (t.deliveries t.attempts.length), [], none⟩] }

def updateLast (t : Task) (f : Attempt → Attempt) : Task :=
  match t.attempts.getLast? with
  | some a => { t with attempts := t.attempts.dropLast ++ [f a] }
  | none => t

def fail (t : Task) (error : TaskError) : Pulled × Task × Cursor :=
  advancing { t with error := some error } .failed fun t' =>
    (.event (.error error.message), t', .over)

/-- An attempt is accepted, if its text gives finished code. -/
def accept (t : Task) (a : Attempt) (target : Stage) : Pulled × Task × Cursor :=
  match Response.finishedArtifact a.text with
  | .error fault => t.fail (.extraction fault.message a.text)
  | .ok code =>
    advancing { t with outcome := some (.success code none) } target fun t' =>
      (.event .done, t', .over)

/-- The first answer is complete: it is extracted and validated, and accepted if it has no
issues. -/
def judge (t : Task) (a : Attempt) : Pulled × Task × Cursor :=
  advancing t .validating fun t =>
    match Response.artifact a.text with
    | .error fault => t.fail (.extraction fault.message a.text)
    | .ok code =>
      match validate t.policy code with
      | .error e => t.raise (.validation e)
      | .ok verdict =>
        let t := t.updateLast fun a => { a with verdict := some verdict }
        if verdict.valid then t.accept a .accepted
        else
          advancing t .retrying fun t => (.event (.status retryStatus), t, .announced)

def stream (t : Task) : Pulled × Task × Cursor :=
  match t.attempts.getLast? with
  | none => (.exhausted, t, .over)
  | some a =>
    match a.playback.next with
    | (.text chunk, playback) =>
      (.event (.delta chunk),
        t.updateLast fun a => { a with playback := playback, chunks := a.chunks ++ [chunk] },
        .streaming)
    | (.failed error, playback) =>
      (t.updateLast fun a => { a with playback := playback }).fail
        (.provider (ProviderError.classify error))
    | (.ended, playback) =>
      let t := t.updateLast fun a => { a with playback := playback }
      if a.number = 1 then t.judge a else t.accept a .done

def lastIssues (t : Task) : List Text :=
  ((t.attempts.getLast?.bind (·.verdict)).elim [] Verdict.issues)

def pull (t : Task) : Cursor → Pulled × Task × Cursor
  | .unstarted =>
    if t.stage = .idle then
      advancing (t.addAttempt t.prepared.userPrompt) .streaming stream
    else t.raise .alreadyRun
  | .streaming => t.stream
  | .announced =>
    (.event .clear, t.addAttempt (t.prepared.retryPrompt t.references t.lastIssues), .cleared)
  | .cleared => advancing t .streaming stream
  | .over => (.exhausted, t, .over)

/-- The reader stops while the newest attempt is being streamed. What the closing of the stream
raises is taken for a failure of the attempt, so the reader answers with an event. -/
def leave (t : Task) : Pulled × Task × Cursor :=
  match t.attempts.getLast? with
  | none => (.exhausted, t, .over)
  | some a =>
    let t := t.updateLast fun a => { a with playback := a.playback.release.2 }
    match a.playback.release.1 with
    | none => (.exhausted, t, .over)
    | some error => t.fail (.provider (.classify error))

def close (t : Task) : Cursor → Pulled × Task × Cursor
  | .streaming => t.leave
  | _ => (.exhausted, t, .over)

end Task

end Composer
