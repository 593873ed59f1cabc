import Composer.Proofs.Generation.History

/-!
The consistency of a task with what its reader was sent: whether it is at its end, what it has come
to, how many attempts it made, and which text the reader holds. It holds of every history, so at
every point where reading may pause.
-/

namespace Composer

/-- The text that an event adds. -/
def Event.addedText : Event → Text
  | .delta text => text
  | _ => []

/-- The events since the last clearing, or since the start. -/
def sinceClear (events : List Event) : List Event :=
  (events.reverse.takeWhile (· ≠ .clear)).reverse

/-- The text that was sent since the last clearing, or since the start. -/
def latestText (events : List Event) : Text := (sinceClear events).flatMap Event.addedText

@[simp] theorem latestText_append_clear (events : List Event) :
    latestText (events ++ [.clear]) = [] := by
  simp [latestText, sinceClear]

theorem latestText_append {events : List Event} {e : Event} (h : e ≠ .clear) :
    latestText (events ++ [e]) = latestText events ++ e.addedText := by
  simp [latestText, sinceClear, h]

theorem latestText_append_deltas (events : List Event) (a : Attempt) :
    latestText (events ++ a.deltas) = latestText events ++ a.text := by
  unfold Attempt.deltas Attempt.text
  induction a.chunks generalizing events with
  | nil => simp
  | cons chunk chunks ih =>
      have hStep := ih (events ++ [.delta chunk])
      rw [latestText_append (by simp)] at hStep
      simpa [Event.addedText] using hStep

namespace Task

/-- There are at most two attempts: a second only after a first that was judged invalid, and itself
without a judgement. -/
structure RetriedOnce (attempts : List Attempt) : Prop where
  atMostTwo : attempts.length ≤ 2
  rejected : ∀ a b, attempts = [a, b] →
    (∃ verdict, a.verdict = some verdict ∧ verdict.valid = false) ∧ b.verdict = none

def newestText (attempts : List Attempt) : Text := attempts.getLast?.elim [] Attempt.text

/-- A task agrees with itself and with the events that were sent for it. -/
structure Consistent (t : Task) (events : List Event) : Prop where
  /-- The stage is final exactly when the last event ends the stream. -/
  closing : t.stage.isFinal ↔ ∃ e, events.getLast? = some e ∧ e.isTerminal
  /-- There is an outcome exactly in the two stages of success. -/
  succeeded : t.stage = .accepted ∨ t.stage = .done ↔ t.outcome.isSome
  /-- An outcome is code, and excludes a failure. -/
  outcome : ∀ x, t.outcome = some x → x.code?.isSome ∧ t.error = none
  /-- There is a failure exactly in the stage of failure. -/
  failed : t.stage = .failed ↔ t.error.isSome
  /-- A failure excludes an outcome. -/
  error : t.error.isSome → t.outcome = none
  retried : RetriedOnce t.attempts
  /-- The reader holds the text of the newest attempt. -/
  text : latestText events = newestText t.attempts

section
variable {base : Task}

/-- A task in a stage that is not final is consistent with events that do not end the stream. -/
theorem consistent_running {stage : Stage} {attempts : List Attempt} {events : List Event}
    (hStage : stage.isFinal = false) (hEvents : ∀ e ∈ events, e.isTerminal = false)
    (hRetried : RetriedOnce attempts) (hText : latestText events = newestText attempts) :
    Consistent (base.standing stage attempts none none) events where
  closing := by
    constructor
    · intro hFinal
      exact absurd (hStage.symm.trans hFinal) (by simp)
    · rintro ⟨e, hLast, hTerminal⟩
      have hOpen := hEvents e (List.mem_of_getLast? hLast)
      exact absurd (hOpen.symm.trans hTerminal) (by simp)
  succeeded := by
    constructor
    · rintro (rfl | rfl) <;> exact absurd hStage (by simp [Stage.isFinal])
    · intro h
      exact absurd h (by simp [standing])
  outcome := fun x h => absurd h (by simp [standing])
  failed := by
    constructor
    · rintro rfl
      exact absurd hStage (by simp [Stage.isFinal])
    · intro h
      exact absurd h (by simp [standing])
  error := fun _ => rfl
  retried := hRetried
  text := hText

theorem consistent_failed {attempts : List Attempt} {error : TaskError} {events : List Event}
    {message : Text} (hRetried : RetriedOnce attempts)
    (hText : latestText events = newestText attempts) :
    Consistent (base.standing .failed attempts none (some error))
      (events ++ [.error message]) where
  closing := by simp [standing, Stage.isFinal, Event.isTerminal]
  succeeded := by simp [standing]
  outcome := fun x h => absurd h (by simp [standing])
  failed := by simp [standing]
  error := fun _ => rfl
  retried := hRetried
  text := by
    rw [latestText_append (by simp), hText]
    exact List.append_nil _

theorem consistent_succeeded {before : List Attempt} {a : Attempt} {target : Stage} {code : Text}
    {events : List Event} (hPassed : Passed base before a target)
    (hRetried : RetriedOnce (before ++ [a]))
    (hText : latestText events = newestText (before ++ [a])) :
    Consistent (base.standing target (before ++ [a]) (some (.success code none)) none)
      (events ++ [.done]) where
  closing := by cases hPassed <;> simp [standing, Stage.isFinal, Event.isTerminal]
  succeeded := by cases hPassed <;> simp [standing]
  outcome := by
    intro x hOutcome
    obtain rfl := Option.some.inj hOutcome
    exact ⟨rfl, rfl⟩
  failed := by cases hPassed <;> simp [standing]
  error := fun h => absurd h (by simp [standing])
  retried := hRetried
  text := by
    rw [latestText_append (by simp), hText]
    exact List.append_nil _

theorem Passed.first_or_unjudged {before : List Attempt} {a : Attempt} {target : Stage}
    (hPassed : Passed base before a target) : before = [] ∨ a.verdict = none := by
  cases hPassed with
  | judged hJudged hValid => exact .inl rfl
  | unjudged hBegun hComplete hVerdict => exact .inr hVerdict

/-- The attempt after an opening is the first, or a second after a rejected one. -/
theorem Opening.retriedOnce {before : List Attempt} {prior : List Event} {a : Attempt}
    (hOpening : Opening base before prior) (hVerdict : before = [] ∨ a.verdict = none) :
    RetriedOnce (before ++ [a]) := by
  cases hOpening with
  | first => exact ⟨by simp, fun x y h => absurd h (by simp)⟩
  | @second b code verdict hJudged hInvalid =>
      refine ⟨by simp, fun x y h => ?_⟩
      obtain ⟨rfl, rfl⟩ : b = x ∧ a = y := by simpa using h
      exact ⟨⟨verdict, hJudged.recorded, hInvalid⟩, hVerdict.resolve_left (by simp)⟩

/-- A reader holds the text of the attempt that is being read. -/
theorem Opening.latestText_deltas {before : List Attempt} {prior : List Event}
    (hOpening : Opening base before prior) (a : Attempt) :
    latestText (prior ++ a.deltas) = newestText (before ++ [a]) := by
  have hPrior : latestText prior = [] := by
    cases hOpening with
    | first => rfl
    | @second b code verdict hJudged hInvalid =>
        rw [List.append_cons, latestText_append_clear]
  rw [latestText_append_deltas, hPrior, newestText, List.getLast?_append]
  rfl

theorem History.consistent {t : Task} {cursor : Cursor} {events : List Event}
    {raised : Option TaskFault} (hHistory : History base t cursor events raised) :
    Consistent t events := by
  cases hHistory with
  | unread =>
      exact consistent_running rfl (by simp) ⟨by simp, fun a b h => absurd h (by simp)⟩ rfl
  | @streaming before prior a rest ending leaving hOpening hBegun hVerdict hDelivery hPlayback =>
      exact consistent_running rfl (hOpening.not_isTerminal a) (hOpening.retriedOnce (.inr hVerdict))
        (hOpening.latestText_deltas a)
  | @brokenOff before prior a error hOpening hBegun hVerdict hBreaks =>
      exact consistent_failed (hOpening.retriedOnce (.inr hVerdict)) (hOpening.latestText_deltas a)
  | @unextracted a fault hBegun hVerdict hComplete hArtifact =>
      have hOpening : Opening base [] [] := .first
      exact consistent_failed (hOpening.retriedOnce (.inl rfl)) (hOpening.latestText_deltas a)
  | @unjudged a code error hBegun hVerdict hComplete hArtifact hValidate =>
      have hOpening : Opening base [] [] := .first
      exact consistent_running rfl (hOpening.not_isTerminal a) (hOpening.retriedOnce (.inl rfl))
        (hOpening.latestText_deltas a)
  | @announced a code verdict hJudged hInvalid =>
      have hOpening : Opening base [] [] := .first
      refine consistent_running rfl ?_ (hOpening.retriedOnce (.inl rfl)) ?_
      · intro e he
        rcases List.mem_append.1 he with he | he
        · exact hOpening.not_isTerminal a e he
        · rw [List.mem_singleton.1 he]
          rfl
      · rw [latestText_append (by simp)]
        simpa [Event.addedText] using hOpening.latestText_deltas a
  | @cleared a b code verdict hJudged hInvalid hBegun hVerdict hChunks hPlayback =>
      have hOpening : Opening base [a] (a.deltas ++ [.status retryStatus, .clear]) :=
        .second hJudged hInvalid
      have hEvents : a.deltas ++ [.status retryStatus, .clear] ++ b.deltas =
          a.deltas ++ [.status retryStatus, .clear] := by
        simp [Attempt.deltas, hChunks]
      have hOpen := hOpening.not_isTerminal b
      have hText := hOpening.latestText_deltas b
      rw [hEvents] at hOpen hText
      exact consistent_running rfl hOpen (hOpening.retriedOnce (.inr hVerdict)) hText
  | @finished before prior a target code hOpening hPassed hFinished =>
      have hVerdict := hPassed.first_or_unjudged
      exact consistent_succeeded hPassed (hOpening.retriedOnce hVerdict)
        (hOpening.latestText_deltas a)
  | @unfinished before prior a target fault hOpening hPassed hFinished =>
      have hVerdict := hPassed.first_or_unjudged
      exact consistent_failed (hOpening.retriedOnce hVerdict) (hOpening.latestText_deltas a)

end

end Task

end Composer
