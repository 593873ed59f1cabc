import Composer.Proofs.Generation.Consistency
import Composer.Proofs.Generation.Drain
import Composer.Proofs.Stream.Frames

/-!
Sending a task to a reader. The events of a run are framed, the stream is cut into chunks anywhere,
and a new reader takes the chunks in. It ends where the task ended: with the text of the newest
attempt and the same outcome, or with the message of the failure.
-/

namespace Composer

namespace StreamReader

/-- A reader that holds what a task has come to. -/
structure Mirrors (r : StreamReader) (depth : Nat) (t : Task) : Prop where
  done : r.done = true
  text : r.text = (Task.newestText t.attempts).widen
  finish : ∃ outcome, t.outcome = some outcome ∧ (r.finish depth).2 = .ok outcome

theorem text_after (r : StreamReader) {e : Event} (h : e ≠ .clear) :
    (r.after e.heard).text = r.text ++ Text.widen e.addedText := by
  cases e with
  | clear => exact absurd rfl h
  | delta t =>
      simp [after, apply, text, Event.addedText, Event.heard, EventOf.map, Except.toOption]
  | status s => exact (List.append_nil _).symm
  | error message => exact (List.append_nil _).symm
  | done => exact (List.append_nil _).symm

/-- The text of a reader is what was sent since the last clearing. -/
theorem text_foldl_after (events : List Event) :
    ((events.map Event.heard).foldl after fresh).text = Text.widen (latestText events) := by
  rw [← List.reverse_reverse events]
  induction events.reverse with
  | nil => rfl
  | cons e earlier ih =>
      rw [List.reverse_cons, List.map_append, List.foldl_append]
      change (after _ e.heard).text = _
      by_cases hClear : e = .clear
      · subst hClear
        rw [latestText_append_clear]
        rfl
      · rw [text_after _ hClear, ih, latestText_append hClear, Text.widen_append]

theorem finish_eq_parse {r : StreamReader} (depth : Nat) (hPending : r.pending = []) {t : Text}
    (hText : r.text = t.widen) (hFilled : t.isBlankText = false) :
    (r.finish depth).2 = .ok (Extraction.parse t) := by
  simp [finish, hPending, hText, hFilled]

end StreamReader

namespace Task

theorem not_mem_error {events : List Event} (hOpen : ∀ e ∈ events, e.isTerminal = false)
    (message : Text) : .error message ∉ events :=
  fun hMem => Bool.noConfusion (hOpen (.error message) hMem)

section
variable {depth : Nat} {chunks : List Text}

/-- A reader that takes in the frames of a task that was concluded mirrors its success, or stops with
the message of its failure. -/
theorem Concludes.received (hDepth : 2 ≤ depth) {t : Task} {events : List Event}
    (hConcludes : t.Concludes events) (hText : latestText events = newestText t.attempts)
    (hChunks : chunks.flatten = Event.frames events) :
    (t.stage = .accepted ∨ t.stage = .done →
      ∃ r, StreamReader.fresh.feedAll depth chunks = (r, .ok (events.map Event.heard)) ∧
        r.Mirrors depth t) ∧
    (t.stage = .failed →
      ∃ error, t.error = some error ∧ (StreamReader.fresh.feedAll depth chunks).2 =
        .error (.reported
          (Text.widen (if error.message.isEmpty then "stream error" else error.message)))) := by
  cases hConcludes with
  | @succeeded before code hOpen hStage hFinished hOutcome =>
      refine ⟨fun _ => ?_, fun hFailed => ?_⟩
      · have hErrors : ∀ message, .error message ∉ before ++ [.done] := by
          intro message hMem
          rcases List.mem_append.1 hMem with hMem | hMem
          · exact not_mem_error hOpen message hMem
          · exact absurd (List.mem_singleton.1 hMem) nofun
        have hPending :=
          StreamReader.foldl_after_pending ((before ++ [Event.done]).map Event.heard) .fresh
        have hRead := (StreamReader.text_foldl_after (before ++ [.done])).trans
          (congrArg Text.widen hText)
        refine ⟨_, StreamReader.feedAll_frames hDepth hErrors hChunks, ?_, hRead, _, hOutcome, ?_⟩
        · rw [List.map_append, List.foldl_append]
          rfl
        · obtain ⟨found, hFound, -, -⟩ := (Response.finishedArtifact_eq_ok_iff _ code).1 hFinished
          have hBlank := Response.isBlankText_eq_false hFound
          rw [StreamReader.finish_eq_parse depth hPending hRead hBlank, Extraction.parse, hFinished]
          rfl
      · rw [hFailed] at hStage
        exact absurd hStage (by decide)
  | @failed before error hOpen hStage hError =>
      refine ⟨fun hSucceeded => ?_, fun _ => ⟨error, hError, ?_⟩⟩
      · rw [hStage] at hSucceeded
        exact absurd hSucceeded (by decide)
      · exact StreamReader.feedAll_frames_error hDepth (not_mem_error hOpen) hChunks

variable (prepared : PreparedRequest) (policy : Policy) (references : Option ReferenceSource)
  (deliveries : Deliveries)

/-- The reader agrees with the task. However the frames of a run are cut into chunks, and whatever
room from two levels on the reader has: when the task succeeded, the reader takes all of them in and
mirrors the task; when the task failed, the reader stops with the message of the failure, or with a
general one where that is empty. -/
theorem reader_agrees (hDepth : 2 ≤ depth)
    (hChunks : chunks.flatten =
      Event.frames (fresh prepared policy references deliveries).drain.events) :
    ((fresh prepared policy references deliveries).drain.task.stage = .accepted ∨
      (fresh prepared policy references deliveries).drain.task.stage = .done →
        ∃ r, StreamReader.fresh.feedAll depth chunks =
            (r, .ok ((fresh prepared policy references deliveries).drain.events.map Event.heard)) ∧
          r.Mirrors depth (fresh prepared policy references deliveries).drain.task) ∧
    ((fresh prepared policy references deliveries).drain.task.stage = .failed →
      ∃ error, (fresh prepared policy references deliveries).drain.task.error = some error ∧
        (StreamReader.fresh.feedAll depth chunks).2 =
          .error (.reported
            (Text.widen (if error.message.isEmpty then "stream error" else error.message)))) := by
  have hHistory := drain_history prepared policy references deliveries
  have hConsistent := hHistory.consistent
  generalize (fresh prepared policy references deliveries).drain = r at *
  cases hRaised : r.raised with
  | some fault =>
      rw [hRaised] at hHistory
      obtain ⟨-, hStage, -, -, -⟩ := hHistory.unjudgeable_of_raised
      rw [hStage]
      exact ⟨fun h => absurd h (by decide), fun h => absurd h (by decide)⟩
  | none =>
      rw [hRaised] at hHistory
      exact hHistory.concludes.received hDepth hConsistent.text hChunks

end

/-- A request whose first answer is rejected, then what `second` delivers. The first answer and the
second look like frames themselves. -/
def retriedRun (second : Delivery) : Task :=
  fresh ⟨⟨some "techno", .new, none, [], none, some "sk-ant-test"⟩, "claude-sonnet-4-5", .anthropic,
    "sk-ant-test", [], "techno"⟩ .standard none
    (Deliveries.ofList [.streamed ["```\nnote(\"data: \")", "\n```"] none, second]
      (.other "ConnectionError" "no further answer"))

/-- An answer with code in it. -/
def secondAnswer : Delivery :=
  .streamed ["data: [DONE]\n\n```\nsetcpm(90)\n$: s(\"bd\")", "\n```"] none

/-- The frames of a run, cut inside of one. -/
def cutFrames (t : Task) : List Text :=
  [(Event.frames t.drain.events).take 50, (Event.frames t.drain.events).drop 50]

/-- One run succeeds with its second answer, one fails because there is none; a reader with room for
two levels agrees with both. -/
theorem reader_agrees_with_retried_runs :
    ((retriedRun secondAnswer).drain.task.stage = .done ∧
      ∃ r, StreamReader.fresh.feedAll 2 (cutFrames (retriedRun secondAnswer)) =
          (r, .ok ((retriedRun secondAnswer).drain.events.map Event.heard)) ∧
        r.Mirrors 2 (retriedRun secondAnswer).drain.task) ∧
    ((retriedRun (.refused (.other "ConnectionError" ""))).drain.task.stage = .failed ∧
      ∃ error, (retriedRun (.refused (.other "ConnectionError" ""))).drain.task.error = some error ∧
        (StreamReader.fresh.feedAll 2
          (cutFrames (retriedRun (.refused (.other "ConnectionError" ""))))).2 =
          .error (.reported
            (Text.widen (if error.message.isEmpty then "stream error" else error.message)))) := by
  have hCut : ∀ t, (cutFrames t).flatten = Event.frames t.drain.events := by
    intro t
    simp [cutFrames]
  have hDone : (retriedRun secondAnswer).drain.task.stage = .done := by decide +kernel
  have hFailed :
      (retriedRun (.refused (.other "ConnectionError" ""))).drain.task.stage = .failed := by
    decide +kernel
  exact ⟨⟨hDone, (reader_agrees _ _ _ _ le_rfl (hCut _)).1 (.inr hDone)⟩, hFailed,
    (reader_agrees _ _ _ _ le_rfl (hCut _)).2 hFailed⟩

end Task

end Composer
