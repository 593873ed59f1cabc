import Composer.Generation.Run

/-!
The histories of a task: every state that reading it can reach, together with the cursor of the
reader, the events it was sent and what was raised. There is one constructor for each place where
reading may pause or end, and it holds what is known there about the provider's deliveries, the
attempts and their judgement.

`History.pull` is the step lemma: one more pull leads from a history to a history. Properties of all
runs are read off the constructors. Readers that are closed early are left out here.
-/

namespace Composer

/-- The deltas in which the texts of an attempt were sent. -/
def Attempt.deltas (a : Attempt) : List Event := a.chunks.map .delta

/-- Whether an event ends the stream: it says that the code is there, or why there is none. -/
def Event.isTerminal : Event → Bool
  | .done => true
  | .error _ => true
  | _ => false

/-- The events that a step of reading sends. -/
def Pulled.events : Pulled → List Event
  | .event e => [e]
  | _ => []

/-- What a step of reading raises. -/
def Pulled.fault? : Pulled → Option TaskFault
  | .raised fault => some fault
  | _ => none

namespace Task

/-- A task with the fixed fields of `base`. -/
def standing (base : Task) (stage : Stage) (attempts : List Attempt)
    (outcome : Option Extraction) (error : Option TaskError) : Task :=
  { base with stage := stage, attempts := attempts, outcome := outcome, error := error }

/-- What is asked for the attempt after the given ones. -/
def promptAfter (base : Task) (before : List Attempt) : Text :=
  match before.getLast? with
  | none => base.prepared.userPrompt
  | some a => base.prepared.retryPrompt base.references (a.verdict.elim [] Verdict.issues)

section
variable (base : Task)

/-- An attempt that was started after those before it. -/
structure Begun (before : List Attempt) (a : Attempt) : Prop where
  number : a.number = before.length + 1
  prompt : a.userPrompt = base.promptAfter before

/-- An attempt whose stream ran out: its texts are all that the provider had for it. -/
structure Complete (before : List Attempt) (a : Attempt) : Prop where
  delivered : ∃ leaving, base.deliveries before.length = .opened a.chunks none leaving
  closed : a.playback = .closed

/-- An attempt that the provider refused, or whose stream broke off. -/
inductive BreaksOff (before : List Attempt) (a : Attempt) (error : Raised) : Prop where
  | refused (hDelivery : base.deliveries before.length = .refused error)
      (hChunks : a.chunks = []) (hPlayback : a.playback = .refused)
  | streamed (leaving : Option Raised)
      (hDelivery : base.deliveries before.length = .opened a.chunks (some error) leaving)
      (hPlayback : a.playback = .closed)

/-- A complete first attempt whose code was found and judged. -/
structure Judged (a : Attempt) (code : Text) (verdict : Verdict) : Prop where
  begun : Begun base [] a
  complete : Complete base [] a
  extracted : Response.artifact a.text = .ok code
  validated : validate base.policy code = .ok verdict
  recorded : a.verdict = some verdict

/-- The attempts and the events before the attempt that is being read: none for the first; for the
second the first one, which was rejected, its deltas, and the announcement. -/
inductive Opening : List Attempt → List Event → Prop where
  | first : Opening [] []
  | second {a : Attempt} {code : Text} {verdict : Verdict} (hJudged : Judged base a code verdict)
      (hInvalid : verdict.valid = false) :
      Opening [a] (a.deltas ++ [.status retryStatus, .clear])

/-- A complete attempt that may be accepted, and the stage this leads to: the first when it was
judged valid, the second without a judgement. -/
inductive Passed : List Attempt → Attempt → Stage → Prop where
  | judged {a : Attempt} {code : Text} {verdict : Verdict} (hJudged : Judged base a code verdict)
      (hValid : verdict.valid = true) : Passed [] a .accepted
  | unjudged {a b : Attempt} (hBegun : Begun base [a] b) (hComplete : Complete base [a] b)
      (hVerdict : b.verdict = none) : Passed [a] b .done

/-- The states of a task with the cursor of its reader, the events sent and what was raised. -/
inductive History : Task → Cursor → List Event → Option TaskFault → Prop where
  /-- Nothing was read yet. -/
  | unread : History (base.standing .idle [] none none) .unstarted [] none
  /-- An attempt is being streamed; `rest` is still to come. -/
  | streaming {before : List Attempt} {prior : List Event} {a : Attempt} {rest : List Text}
      {ending leaving : Option Raised} (hOpening : Opening base before prior)
      (hBegun : Begun base before a) (hVerdict : a.verdict = none)
      (hDelivery : base.deliveries before.length = .opened (a.chunks ++ rest) ending leaving)
      (hPlayback : a.playback = .playing rest ending leaving) :
      History (base.standing .streaming (before ++ [a]) none none) .streaming
        (prior ++ a.deltas) none
  /-- The stream of an attempt failed. -/
  | brokenOff {before : List Attempt} {prior : List Event} {a : Attempt} {error : Raised}
      (hOpening : Opening base before prior) (hBegun : Begun base before a)
      (hVerdict : a.verdict = none) (hBreaks : BreaksOff base before a error) :
      History
        (base.standing .failed (before ++ [a]) none (some (.provider (.classify error)))) .over
        (prior ++ a.deltas ++ [.error (ProviderError.classify error).message]) none
  /-- No code was found in the first attempt. -/
  | unextracted {a : Attempt} {fault : ExtractionFault} (hBegun : Begun base [] a)
      (hVerdict : a.verdict = none) (hComplete : Complete base [] a)
      (hArtifact : Response.artifact a.text = .error fault) :
      History (base.standing .failed [a] none (some (.extraction fault.message a.text))) .over
        (a.deltas ++ [.error fault.message]) none
  /-- The code of the first attempt could not be judged. -/
  | unjudged {a : Attempt} {code : Text} {error : ValidationError} (hBegun : Begun base [] a)
      (hVerdict : a.verdict = none) (hComplete : Complete base [] a)
      (hArtifact : Response.artifact a.text = .ok code)
      (hValidate : validate base.policy code = .error error) :
      History (base.standing .validating [a] none none) .over a.deltas (some (.validation error))
  /-- The code of the first attempt was rejected, and the retry was announced. -/
  | announced {a : Attempt} {code : Text} {verdict : Verdict} (hJudged : Judged base a code verdict)
      (hInvalid : verdict.valid = false) :
      History (base.standing .retrying [a] none none) .announced
        (a.deltas ++ [.status retryStatus]) none
  /-- The second attempt was set up. -/
  | cleared {a b : Attempt} {code : Text} {verdict : Verdict} (hJudged : Judged base a code verdict)
      (hInvalid : verdict.valid = false) (hBegun : Begun base [a] b) (hVerdict : b.verdict = none)
      (hChunks : b.chunks = []) (hPlayback : b.playback = .waiting (base.deliveries 1)) :
      History (base.standing .retrying [a, b] none none) .cleared
        (a.deltas ++ [.status retryStatus, .clear]) none
  /-- An attempt passed, and its text gave finished code. -/
  | finished {before : List Attempt} {prior : List Event} {a : Attempt} {target : Stage}
      {code : Text} (hOpening : Opening base before prior) (hPassed : Passed base before a target)
      (hFinished : Response.finishedArtifact a.text = .ok code) :
      History (base.standing target (before ++ [a]) (some (.success code none)) none) .over
        (prior ++ a.deltas ++ [.done]) none
  /-- An attempt passed, and its text gave no finished code. -/
  | unfinished {before : List Attempt} {prior : List Event} {a : Attempt} {target : Stage}
      {fault : ExtractionFault} (hOpening : Opening base before prior)
      (hPassed : Passed base before a target)
      (hFinished : Response.finishedArtifact a.text = .error fault) :
      History
        (base.standing .failed (before ++ [a]) none (some (.extraction fault.message a.text))) .over
        (prior ++ a.deltas ++ [.error fault.message]) none

/-- A step of reading that leads to a history, given the events before it. -/
def Follows (events : List Event) (step : Pulled × Task × Cursor) : Prop :=
  History base step.2.1 step.2.2 (events ++ step.1.events) step.1.fault?

end

section
variable {base : Task}

/-- No event before the end of an attempt ends the stream. -/
theorem Opening.not_isTerminal {before : List Attempt} {prior : List Event}
    (hOpening : Opening base before prior) (a : Attempt) :
    ∀ e ∈ prior ++ a.deltas, e.isTerminal = false := by
  have hDeltas : ∀ b : Attempt, ∀ e ∈ b.deltas, e.isTerminal = false := by
    intro b e he
    obtain ⟨text, -, rfl⟩ := List.mem_map.1 he
    rfl
  intro e he
  rcases List.mem_append.1 he with he | he
  · cases hOpening with
    | first => exact absurd he List.not_mem_nil
    | @second b code verdict hJudged hInvalid =>
        rcases List.mem_append.1 he with he | he
        · exact hDeltas b e he
        · simp only [List.mem_cons, List.not_mem_nil, or_false] at he
          rcases he with rfl | rfl <;> rfl
  · exact hDeltas a e he

@[simp] theorem getLast?_standing (stage : Stage) (before : List Attempt) (a : Attempt)
    (outcome : Option Extraction) (error : Option TaskError) :
    (base.standing stage (before ++ [a]) outcome error).attempts.getLast? = some a := by
  simp [standing]

@[simp] theorem updateLast_standing (stage : Stage) (before : List Attempt) (a : Attempt)
    (outcome : Option Extraction) (error : Option TaskError) (f : Attempt → Attempt) :
    (base.standing stage (before ++ [a]) outcome error).updateLast f =
      base.standing stage (before ++ [f a]) outcome error := by
  simp [updateLast, standing]

/-- A step to a stage that may follow goes on in that stage. -/
theorem advancing_standing (stage target : Stage) (attempts : List Attempt)
    (outcome : Option Extraction) (error : Option TaskError)
    (rest : Task → Pulled × Task × Cursor) (h : target ∈ stage.successors) :
    (base.standing stage attempts outcome error).advancing target rest =
      rest (base.standing target attempts outcome error) := by
  simp [advancing, advance, standing, h]

/-- A task fails from every stage in which it streams or validates. -/
theorem fail_standing (stage : Stage) (attempts : List Attempt) (error : TaskError)
    (h : .failed ∈ stage.successors) :
    (base.standing stage attempts none none).fail error =
      (.event (.error error.message), base.standing .failed attempts none (some error), .over) :=
  advancing_standing stage .failed attempts none (some error) _ h

/-- An attempt that passed ends the task: with its finished code, or with why there is none. -/
theorem accept_history (stage : Stage) {before : List Attempt} {prior : List Event} {a : Attempt}
    {target : Stage} (hOpening : Opening base before prior)
    (hPassed : Passed base before a target) (hFail : .failed ∈ stage.successors)
    (hTarget : target ∈ stage.successors) :
    Follows base (prior ++ a.deltas)
      ((base.standing stage (before ++ [a]) none none).accept a target) := by
  unfold accept
  cases hFinished : Response.finishedArtifact a.text with
  | error fault =>
      simp only [fail_standing stage _ _ hFail]
      exact .unfinished hOpening hPassed hFinished
  | ok code =>
      change Follows base _ (advancing (base.standing stage (before ++ [a])
        (some (.success code none)) none) target fun t => (.event .done, t, .over))
      rw [advancing_standing stage target _ _ _ _ hTarget]
      exact .finished hOpening hPassed hFinished

/-- A complete first answer is judged: it ends the task, or leads to the announcement. -/
theorem judge_history {a : Attempt} (hBegun : Begun base [] a) (hVerdict : a.verdict = none)
    (hComplete : Complete base [] a) :
    Follows base a.deltas ((base.standing .streaming [a] none none).judge a) := by
  unfold judge
  rw [advancing_standing .streaming .validating _ _ _ _ (by decide)]
  cases hArtifact : Response.artifact a.text with
  | error fault =>
      simp only [fail_standing .validating [a] _ (by decide)]
      exact .unextracted hBegun hVerdict hComplete hArtifact
  | ok code =>
      simp only
      cases hValidate : validate (base.standing .validating [a] none none).policy code with
      | error error =>
          have hHistory := History.unjudged hBegun hVerdict hComplete hArtifact hValidate
          rwa [← List.append_nil a.deltas] at hHistory
      | ok verdict =>
          have hUpdate : (base.standing .validating [a] none none).updateLast
              (fun a => { a with verdict := some verdict }) =
                base.standing .validating [{ a with verdict := some verdict }] none none :=
            updateLast_standing .validating [] a none none _
          simp only [hUpdate]
          have hJudged : Judged base { a with verdict := some verdict } code verdict :=
            ⟨⟨hBegun.number, hBegun.prompt⟩, ⟨hComplete.delivered, hComplete.closed⟩, hArtifact,
              hValidate, rfl⟩
          cases hValid : verdict.valid with
          | true =>
              exact accept_history .validating .first (.judged hJudged hValid) (by decide) (by decide)
          | false =>
              simp only [Bool.false_eq_true, if_false]
              rw [advancing_standing .validating .retrying _ _ _ _ (by decide)]
              exact .announced hJudged hValid

/-- The stream of an attempt that is being read, before its next step: not asked for yet, or open. -/
inductive Listening (base : Task) (before : List Attempt) (a : Attempt) : Prop where
  | waiting (hChunks : a.chunks = [])
      (hPlayback : a.playback = .waiting (base.deliveries before.length))
  | playing (rest : List Text) (ending leaving : Option Raised)
      (hDelivery : base.deliveries before.length = .opened (a.chunks ++ rest) ending leaving)
      (hPlayback : a.playback = .playing rest ending leaving)

/-- What the next step of reading an attempt may give, and what the provider then had for it. -/
inductive Heard (base : Task) (before : List Attempt) (a : Attempt) :
    PlaybackStep × Playback → Prop where
  | failed {error : Raised} {playback : Playback}
      (hBreaks : BreaksOff base before { a with playback := playback } error) :
      Heard base before a (.failed error, playback)
  | ended (hComplete : Complete base before { a with playback := .closed }) :
      Heard base before a (.ended, .closed)
  | text {chunk : Text} {more : List Text} {ending leaving : Option Raised}
      (hDelivery : base.deliveries before.length =
        .opened (a.chunks ++ [chunk] ++ more) ending leaving) :
      Heard base before a (.text chunk, .playing more ending leaving)

theorem advance_heard {before : List Attempt} {a : Attempt} {rest : List Text}
    {ending leaving : Option Raised}
    (hDelivery : base.deliveries before.length = .opened (a.chunks ++ rest) ending leaving) :
    Heard base before a (Playback.advance rest ending leaving) := by
  cases rest with
  | nil =>
      rw [List.append_nil] at hDelivery
      cases ending with
      | none => exact .ended ⟨⟨leaving, hDelivery⟩, rfl⟩
      | some error => exact .failed (.streamed leaving hDelivery rfl)
  | cons chunk more => exact .text (by simpa using hDelivery)

/-- A stream that was not asked for yet is refused, or read like an open one. -/
theorem Listening.next_heard {before : List Attempt} {a : Attempt}
    (hListening : Listening base before a) : Heard base before a a.playback.next := by
  cases hListening with
  | playing rest ending leaving hDelivery hPlayback =>
      rw [hPlayback]
      exact advance_heard hDelivery
  | waiting hChunks hPlayback =>
      rw [hPlayback]
      cases hDelivery : base.deliveries before.length with
      | refused error => exact .failed (.refused hDelivery hChunks rfl)
      | opened texts ending leaving => exact advance_heard (by rw [hDelivery, hChunks]; rfl)

/-- One step of reading the stream of an attempt. -/
theorem stream_history {before : List Attempt} {prior : List Event} {a : Attempt}
    (hOpening : Opening base before prior) (hBegun : Begun base before a)
    (hVerdict : a.verdict = none) (hListening : Listening base before a) :
    Follows base (prior ++ a.deltas)
      (base.standing .streaming (before ++ [a]) none none).stream := by
  have hHeard := hListening.next_heard
  unfold stream
  rw [getLast?_standing]
  simp only
  cases hNext : a.playback.next with
  | mk step playback =>
      rw [hNext] at hHeard
      cases hHeard with
      | failed hBreaks =>
          simp only [updateLast_standing, fail_standing .streaming _ _ (by decide)]
          exact .brokenOff hOpening ⟨hBegun.number, hBegun.prompt⟩ hVerdict hBreaks
      | ended hComplete =>
          simp only [updateLast_standing]
          have hClosed : Begun base before { a with playback := .closed } :=
            ⟨hBegun.number, hBegun.prompt⟩
          have hNumber := hBegun.number
          cases hOpening with
          | first =>
              rw [if_pos (by simpa using hNumber)]
              exact judge_history hClosed hVerdict hComplete
          | second hJudged hInvalid =>
              rw [if_neg (by simp [hNumber])]
              exact accept_history .streaming (.second hJudged hInvalid)
                (.unjudged hClosed hComplete hVerdict) (by decide) (by decide)
      | @text chunk more ending leaving hDelivery =>
          simp only [updateLast_standing]
          have hStreaming : History base _ _ _ _ := .streaming hOpening
            (⟨hBegun.number, hBegun.prompt⟩ : Begun base before { a with
              playback := .playing more ending leaving, chunks := a.chunks ++ [chunk] })
            hVerdict hDelivery rfl
          simpa [Follows, Pulled.events, Pulled.fault?, Attempt.deltas] using hStreaming

/-- The step lemma: one more pull leads from a history to a history. -/
theorem History.pull {t : Task} {cursor : Cursor} {events : List Event} {raised : Option TaskFault}
    (hHistory : History base t cursor events raised) :
    History base (t.pull cursor).2.1 (t.pull cursor).2.2 (events ++ (t.pull cursor).1.events)
      (raised <|> (t.pull cursor).1.fault?) := by
  by_cases hOver : cursor = .over
  · subst hOver
    simpa [Task.pull, Pulled.events, Pulled.fault?] using hHistory
  cases hHistory with
  | unread =>
      let a : Attempt := ⟨1, base.prepared.userPrompt, .waiting (base.deliveries 0), [], none⟩
      have hPull : (base.standing .idle [] none none).pull .unstarted =
          (base.standing .streaming ([] ++ [a]) none none).stream := by
        have hIdle : (base.standing .idle [] none none).stage = .idle := rfl
        rw [Task.pull, if_pos hIdle]
        exact advancing_standing .idle .streaming [a] none none stream (by decide)
      have hListening : Listening base [] a := .waiting rfl rfl
      rw [hPull]
      exact stream_history .first ⟨rfl, rfl⟩ rfl hListening
  | streaming hOpening hBegun hVerdict hDelivery hPlayback =>
      exact stream_history hOpening hBegun hVerdict (.playing _ _ _ hDelivery hPlayback)
  | @announced a code verdict hJudged hInvalid =>
      have hPrompt : base.prepared.retryPrompt base.references verdict.issues =
          base.promptAfter [a] := by
        simp [promptAfter, hJudged.recorded]
      have hBegun : Begun base [a] ⟨2, base.prepared.retryPrompt base.references verdict.issues,
          .waiting (base.deliveries 1), [], none⟩ := ⟨rfl, hPrompt⟩
      have hCleared : History base _ _ _ _ := .cleared hJudged hInvalid hBegun rfl rfl rfl
      simpa [Task.pull, Pulled.events, Pulled.fault?, addAttempt, standing, lastIssues,
        hJudged.recorded] using hCleared
  | @cleared a b code verdict hJudged hInvalid hBegun hVerdict hChunks hPlayback =>
      have hPull : (base.standing .retrying [a, b] none none).pull .cleared =
          (base.standing .streaming ([a] ++ [b]) none none).stream :=
        advancing_standing .retrying .streaming [a, b] none none stream (by decide)
      have hStream := stream_history (.second hJudged hInvalid) hBegun hVerdict
        (.waiting hChunks hPlayback)
      rw [hPull]
      simpa [Follows, Attempt.deltas, hChunks] using hStream
  | brokenOff => exact absurd rfl hOver
  | unextracted => exact absurd rfl hOver
  | unjudged => exact absurd rfl hOver
  | finished => exact absurd rfl hOver
  | unfinished => exact absurd rfl hOver

end

end Task

end Composer
