import Composer.Proofs.Code.Judgement
import Composer.Proofs.Generation.Consistency
import Composer.Proofs.Response.Artifact

/-!
Runs that read everything. A run needs no more pulls than it is given, since its events are counted
by the provider's texts; it ends in a final stage with one closing event, unless the code of a
complete first answer has no judgement. Then the run raises, and the task is left in validation with
neither an outcome nor a failure.
-/

namespace Composer

def Readout.events (r : Readout) : List Event := r.observed.map (·.event)

/-- A run that ended as it should: nothing was raised, the stage is final, and the last event, but
no event before it, ends the stream. -/
structure Readout.Completes (r : Readout) : Prop where
  quiet : r.raised = none
  ended : r.cursor = .over
  final : r.task.stage.isFinal
  closing : ∃ before last, r.events = before ++ [last] ∧ last.isTerminal ∧
    ∀ e ∈ before, e.isTerminal = false

/-- A run that ended in validation: its fault was raised, the task came to nothing, and the stream
was not ended. -/
structure Readout.Stuck (r : Readout) (fault : ValidationError) : Prop where
  raised : r.raised = some (.validation fault)
  ended : r.cursor = .over
  stage : r.task.stage = .validating
  outcome : r.task.outcome = none
  error : r.task.error = none
  unclosed : ∀ e ∈ r.events, e.isTerminal = false

theorem Readout.Completes.not_stuck {r : Readout} (hCompletes : r.Completes)
    (fault : ValidationError) : ¬r.Stuck fault := by
  intro hStuck
  exact absurd (hCompletes.quiet.symm.trans hStuck.raised) (by simp)

/-- The first answer is complete and has code, but the reading of its factors stops at these
digits. -/
def Deliveries.Unjudgeable (d : Deliveries) (digits : Text) : Prop :=
  ∃ texts leaving code, d 0 = .opened texts none leaving ∧
    Response.artifact texts.flatten = .ok code ∧
    Validation.StopsAt digits (Measure.fastFactors code)

namespace Task

/-- What a task has come to, and how its events end: nothing before the last event ends the stream,
and the last one tells of the outcome or of the failure. -/
inductive Concludes (t : Task) : List Event → Prop where
  | succeeded {before : List Event} {code : Text} (hOpen : ∀ e ∈ before, e.isTerminal = false)
      (hStage : t.stage = .accepted ∨ t.stage = .done)
      (hFinished : Response.finishedArtifact (newestText t.attempts) = .ok code)
      (hOutcome : t.outcome = some (.success code none)) : Concludes t (before ++ [.done])
  | failed {before : List Event} {error : TaskError} (hOpen : ∀ e ∈ before, e.isTerminal = false)
      (hStage : t.stage = .failed) (hError : t.error = some error) :
      Concludes t (before ++ [.error error.message])

section
variable {base : Task}

/-- What is read by a cursor continues the history before it. -/
theorem History.read (limit : Nat) {t : Task} {cursor : Cursor} {events : List Event}
    {raised : Option TaskFault} (hHistory : History base t cursor events raised) :
    History base (t.read limit cursor).task (t.read limit cursor).cursor
      (events ++ (t.read limit cursor).events) (raised <|> (t.read limit cursor).raised) := by
  induction limit generalizing t cursor events with
  | zero => simpa [Task.read, Readout.events] using hHistory
  | succ limit ih =>
      have hPull := hHistory.pull
      unfold Task.read
      split
      · next e t' cursor' hStep =>
          rw [hStep] at hPull
          have hQuiet : (raised <|> (Pulled.event e).fault?) = raised := by
            cases raised <;> rfl
          rw [hQuiet] at hPull
          simpa [Readout.events, Pulled.events] using ih hPull
      · next t' cursor' hStep =>
          simpa [hStep, Readout.events, Pulled.events, Pulled.fault?] using hPull
      · next fault t' cursor' hStep =>
          simpa [hStep, Readout.events, Pulled.events, Pulled.fault?] using hPull

end

/-- A step of reading ends it, or sends an event and goes on. -/
def Settles (step : Pulled × Task × Cursor) : Prop :=
  step.2.2 = .over ∨ step.1.events ≠ [] ∧ step.2.2 ≠ .unstarted

theorem advancing_settles (t : Task) (target : Stage) {rest : Task → Pulled × Task × Cursor}
    (hRest : ∀ t', Settles (rest t')) : Settles (t.advancing target rest) := by
  unfold advancing
  cases t.advance target with
  | ok t' => exact hRest t'
  | error fault => exact .inl rfl

theorem fail_settles (t : Task) (error : TaskError) : Settles (t.fail error) :=
  advancing_settles _ _ fun _ => .inl rfl

theorem accept_settles (t : Task) (a : Attempt) (target : Stage) :
    Settles (t.accept a target) := by
  unfold accept
  cases Response.finishedArtifact a.text with
  | error fault => exact fail_settles t _
  | ok code => exact advancing_settles _ _ fun _ => .inl rfl

theorem judge_settles (t : Task) (a : Attempt) : Settles (t.judge a) := by
  apply advancing_settles
  intro t
  cases Response.artifact a.text with
  | error fault => exact fail_settles t _
  | ok code =>
      simp only
      cases validate t.policy code with
      | error fault => exact .inl rfl
      | ok verdict =>
          simp only
          split
          · exact accept_settles _ a _
          · exact advancing_settles _ _ fun _ => .inr ⟨by simp [Pulled.events], by simp⟩

theorem stream_settles (t : Task) : Settles t.stream := by
  unfold stream
  cases t.attempts.getLast? with
  | none => exact .inl rfl
  | some a =>
      simp only
      split
      · exact .inr ⟨by simp [Pulled.events], by simp⟩
      · exact fail_settles _ _
      · split
        · exact judge_settles _ a
        · exact accept_settles _ a _

theorem pull_settles (t : Task) (cursor : Cursor) : Settles (t.pull cursor) := by
  cases cursor with
  | unstarted =>
      by_cases hIdle : t.stage = .idle
      · rw [pull, if_pos hIdle]
        exact advancing_settles _ _ stream_settles
      · rw [pull, if_neg hIdle]
        exact .inl rfl
  | streaming => exact stream_settles t
  | announced => exact .inr ⟨by simp [pull, Pulled.events], by simp [pull]⟩
  | cleared => exact advancing_settles t _ stream_settles
  | _ => exact .inl rfl

theorem pull_ne_unstarted (t : Task) (cursor : Cursor) : (t.pull cursor).2.2 ≠ .unstarted := by
  rcases pull_settles t cursor with hOver | ⟨-, hGoing⟩
  · rw [hOver]
    exact Cursor.noConfusion
  · exact hGoing

section
variable {base : Task}

theorem Passed.complete {before : List Attempt} {a : Attempt} {target : Stage}
    (hPassed : Passed base before a target) : Complete base before a := by
  cases hPassed with
  | judged hJudged hValid => exact hJudged.complete
  | unjudged hBegun hComplete hVerdict => exact hComplete

theorem Complete.length_chunks {before : List Attempt} {a : Attempt}
    (hComplete : Complete base before a) :
    a.chunks.length = (base.deliveries before.length).size := by
  obtain ⟨leaving, hDelivered⟩ := hComplete.delivered
  rw [hDelivered]
  rfl

theorem BreaksOff.length_chunks {before : List Attempt} {a : Attempt} {error : Raised}
    (hBreaks : BreaksOff base before a error) :
    a.chunks.length = (base.deliveries before.length).size := by
  cases hBreaks with
  | refused hDelivery hChunks hPlayback => rw [hDelivery, hChunks]; rfl
  | streamed leaving hDelivery hPlayback => rw [hDelivery]; rfl

/-- The events before the end of an attempt are no more than the texts that were delivered, the
announcement and the clearing. -/
theorem Opening.length_events_le {before : List Attempt} {prior : List Event} {a : Attempt}
    (hOpening : Opening base before prior)
    (hChunks : a.chunks.length ≤ (base.deliveries before.length).size) :
    (prior ++ a.deltas).length ≤ (base.deliveries 0).size + (base.deliveries 1).size + 2 := by
  cases hOpening with
  | first =>
      simp only [List.length_nil] at hChunks
      simp only [List.nil_append, Attempt.deltas, List.length_map]
      omega
  | @second b code verdict hJudged hInvalid =>
      have hFirst := hJudged.complete.length_chunks
      simp only [List.length_cons, List.length_nil, Nat.zero_add] at hChunks hFirst
      simp only [Attempt.deltas, List.length_append, List.length_map, List.length_cons,
        List.length_nil]
      omega

/-- The events of a history are counted by the texts that were delivered. -/
theorem History.length_events_le {t : Task} {cursor : Cursor} {events : List Event}
    {raised : Option TaskFault} (hHistory : History base t cursor events raised) :
    events.length ≤ (base.deliveries 0).size + (base.deliveries 1).size + 3 := by
  have hAnswered : ∀ {a : Attempt}, Complete base [] a → a.chunks.length ≤
      (base.deliveries 0).size := fun hComplete => Nat.le_of_eq hComplete.length_chunks
  cases hHistory with
  | unread => simp
  | streaming hOpening hBegun hVerdict hDelivery hPlayback =>
      refine Nat.le_succ_of_le (hOpening.length_events_le ?_)
      rw [hDelivery]
      simp [Delivery.size]
  | brokenOff hOpening hBegun hVerdict hBreaks =>
      rw [List.length_append]
      exact Nat.succ_le_succ (hOpening.length_events_le (Nat.le_of_eq hBreaks.length_chunks))
  | unextracted hBegun hVerdict hComplete hArtifact =>
      have := hAnswered hComplete
      simp only [Attempt.deltas, List.length_append, List.length_map, List.length_singleton]
      omega
  | unjudged hBegun hVerdict hComplete hArtifact hValidate =>
      have := hAnswered hComplete
      simp only [Attempt.deltas, List.length_map]
      omega
  | announced hJudged hInvalid =>
      have := hAnswered hJudged.complete
      simp only [Attempt.deltas, List.length_append, List.length_map, List.length_singleton]
      omega
  | cleared hJudged hInvalid hBegun hVerdict hChunks hPlayback =>
      have := hAnswered hJudged.complete
      simp only [Attempt.deltas, List.length_append, List.length_map, List.length_cons,
        List.length_nil]
      omega
  | finished hOpening hPassed hFinished =>
      rw [List.length_append]
      exact Nat.succ_le_succ
        (hOpening.length_events_le (Nat.le_of_eq hPassed.complete.length_chunks))
  | unfinished hOpening hPassed hFinished =>
      rw [List.length_append]
      exact Nat.succ_le_succ
        (hOpening.length_events_le (Nat.le_of_eq hPassed.complete.length_chunks))

/-- A reader that has more pulls than events can come reaches the end. -/
theorem History.read_over (limit : Nat) {t : Task} {cursor : Cursor} {events : List Event}
    {raised : Option TaskFault} (hHistory : History base t cursor events raised)
    (hLimit : (base.deliveries 0).size + (base.deliveries 1).size + 3 < events.length + limit) :
    (t.read limit cursor).cursor = .over := by
  induction limit generalizing t cursor events raised with
  | zero => exact absurd hHistory.length_events_le (Nat.not_le.2 hLimit)
  | succ limit ih =>
      have hPull := hHistory.pull
      have hSettles := pull_settles t cursor
      unfold Task.read
      split
      · next e t' cursor' hStep =>
          rw [hStep] at hPull
          refine ih hPull ?_
          simp only [Pulled.events, List.length_append, List.length_singleton]
          omega
      · next t' cursor' hStep =>
          rw [hStep] at hSettles
          exact hSettles.resolve_right fun h => h.1 rfl
      · next fault t' cursor' hStep =>
          rw [hStep] at hSettles
          exact hSettles.resolve_right fun h => h.1 rfl

theorem Judged.not_unjudgeable {a : Attempt} {code : Text} {verdict : Verdict}
    (hJudged : Judged base a code verdict) (digits : Text) :
    ¬base.deliveries.Unjudgeable digits := by
  rintro ⟨texts, leaving, code', hDelivery, hArtifact, hStops⟩
  obtain ⟨leaving', hDelivered⟩ := hJudged.complete.delivered
  obtain ⟨rfl, -, -⟩ := Delivery.opened.inj (hDelivery.symm.trans hDelivered)
  obtain rfl := Except.ok.inj (hArtifact.symm.trans hJudged.extracted)
  have hError := (Validation.validate_eq_error_iff base.policy code' _).2 ⟨digits, hStops, rfl⟩
  exact absurd (hError.symm.trans hJudged.validated) (by simp)

theorem Passed.not_unjudgeable {before : List Attempt} {prior : List Event} {a : Attempt}
    {target : Stage} (hOpening : Opening base before prior)
    (hPassed : Passed base before a target) (digits : Text) :
    ¬base.deliveries.Unjudgeable digits := by
  cases hPassed with
  | judged hJudged hValid => exact hJudged.not_unjudgeable digits
  | unjudged hBegun hComplete hVerdict =>
      cases hOpening with
      | second hJudged hInvalid => exact hJudged.not_unjudgeable digits

/-- Reading to the end raises the fault of a first answer that cannot be judged. -/
theorem History.raised_of_unjudgeable {t : Task} {events : List Event} {raised : Option TaskFault}
    (hHistory : History base t .over events raised) {digits : Text}
    (hUnjudgeable : base.deliveries.Unjudgeable digits) :
    raised = some (.validation (.oversizedFactor digits.length)) := by
  obtain ⟨texts, leaving, code, hDelivery, hArtifact, hStops⟩ := id hUnjudgeable
  have hText : ∀ {a : Attempt}, Complete base [] a → Response.artifact a.text = .ok code := by
    intro a hComplete
    obtain ⟨leaving', hDelivered⟩ := hComplete.delivered
    obtain ⟨rfl, -, -⟩ := Delivery.opened.inj (hDelivery.symm.trans hDelivered)
    exact hArtifact
  cases hHistory with
  | @brokenOff before prior a error hOpening hBegun hVerdict hBreaks =>
      cases hOpening with
      | first =>
          cases hBreaks with
          | refused hRefused => exact absurd (hDelivery.symm.trans hRefused) (by simp)
          | streamed leaving' hStreamed => exact absurd (hDelivery.symm.trans hStreamed) (by simp)
      | second hJudged hInvalid => exact absurd hUnjudgeable (hJudged.not_unjudgeable digits)
  | unextracted hBegun hVerdict hComplete hFault =>
      exact absurd ((hText hComplete).symm.trans hFault) (by simp)
  | unjudged hBegun hVerdict hComplete hCode hValidate =>
      obtain rfl := Except.ok.inj ((hText hComplete).symm.trans hCode)
      have hError := (Validation.validate_eq_error_iff base.policy code _).2 ⟨digits, hStops, rfl⟩
      rw [Except.error.inj (hValidate.symm.trans hError)]
  | finished hOpening hPassed hFinished =>
      exact absurd hUnjudgeable (hPassed.not_unjudgeable hOpening digits)
  | unfinished hOpening hPassed hFinished =>
      exact absurd hUnjudgeable (hPassed.not_unjudgeable hOpening digits)

/-- Whatever is raised is the fault of a first answer that cannot be judged, and it leaves the task
in validation. -/
theorem History.unjudgeable_of_raised {t : Task} {cursor : Cursor} {events : List Event}
    {fault : TaskFault} (hHistory : History base t cursor events (some fault)) :
    (∃ digits, base.deliveries.Unjudgeable digits ∧
      fault = .validation (.oversizedFactor digits.length)) ∧
    t.stage = .validating ∧ t.outcome = none ∧ t.error = none ∧
      ∀ e ∈ events, e.isTerminal = false := by
  cases hHistory with
  | @unjudged a code error hBegun hVerdict hComplete hArtifact hValidate =>
      obtain ⟨digits, hStops, rfl⟩ := (Validation.validate_eq_error_iff _ _ _).1 hValidate
      obtain ⟨leaving, hDelivered⟩ := hComplete.delivered
      exact ⟨⟨digits, ⟨a.chunks, leaving, code, hDelivered, hArtifact, hStops⟩, rfl⟩, rfl, rfl, rfl,
        (Opening.first : Opening base [] []).not_isTerminal a⟩

/-- Reading to the end without a fault concludes the task. -/
theorem History.concludes {t : Task} {events : List Event}
    (hHistory : History base t .over events none) : t.Concludes events := by
  cases hHistory with
  | @brokenOff before prior a error hOpening hBegun hVerdict hBreaks =>
      exact @Concludes.failed _ _ (.provider (.classify error)) (hOpening.not_isTerminal a) rfl rfl
  | @unextracted a fault hBegun hVerdict hComplete hArtifact =>
      have hOpening : Opening base [] [] := .first
      exact @Concludes.failed _ _ (.extraction fault.message a.text) (hOpening.not_isTerminal a)
        rfl rfl
  | @finished before prior a target code hOpening hPassed hFinished =>
      refine .succeeded (hOpening.not_isTerminal a) ?_ ?_ rfl
      · cases hPassed with
        | judged hJudged hValid => exact .inl rfl
        | unjudged hBegun hComplete hVerdict => exact .inr rfl
      · change Response.finishedArtifact (newestText (before ++ [a])) = .ok code
        rw [newestText, List.getLast?_concat]
        exact hFinished
  | @unfinished before prior a target fault hOpening hPassed hFinished =>
      exact @Concludes.failed _ _ (.extraction fault.message a.text) (hOpening.not_isTerminal a)
        rfl rfl

/-- A task that was concluded is in a final stage, and its last event, but no event before it, ends
the stream. -/
theorem Concludes.closing {t : Task} {events : List Event} (hConcludes : t.Concludes events) :
    t.stage.isFinal ∧ ∃ before last, events = before ++ [last] ∧ last.isTerminal ∧
      ∀ e ∈ before, e.isTerminal = false := by
  cases hConcludes with
  | @succeeded before code hOpen hStage hFinished hOutcome =>
      refine ⟨?_, before, .done, rfl, rfl, hOpen⟩
      rcases hStage with hStage | hStage
      · rw [hStage]
        rfl
      · rw [hStage]
        rfl
  | @failed before error hOpen hStage hError =>
      refine ⟨?_, before, .error error.message, rfl, rfl, hOpen⟩
      rw [hStage]
      rfl

end

section
variable (prepared : PreparedRequest) (policy : Policy) (references : Option ReferenceSource)
  (deliveries : Deliveries)

/-- The history of a run that reads up to `limit` events. -/
theorem read_history (limit : Nat) :
    History (fresh prepared policy references deliveries)
      ((fresh prepared policy references deliveries).read limit .unstarted).task
      ((fresh prepared policy references deliveries).read limit .unstarted).cursor
      ((fresh prepared policy references deliveries).read limit .unstarted).events
      ((fresh prepared policy references deliveries).read limit .unstarted).raised := by
  have hUnread : History (fresh prepared policy references deliveries)
    (fresh prepared policy references deliveries) .unstarted [] none := .unread
  exact hUnread.read limit

theorem drain_over : (fresh prepared policy references deliveries).drain.cursor = .over := by
  have hUnread : History (fresh prepared policy references deliveries)
    (fresh prepared policy references deliveries) .unstarted [] none := .unread
  refine hUnread.read_over _ ?_
  simp only [pullLimit, List.length_nil]
  omega

/-- The history of a run that reads everything. -/
theorem drain_history :
    History (fresh prepared policy references deliveries)
      (fresh prepared policy references deliveries).drain.task .over
      (fresh prepared policy references deliveries).drain.events
      (fresh prepared policy references deliveries).drain.raised := by
  have hRead := read_history prepared policy references deliveries
    (fresh prepared policy references deliveries).pullLimit
  change History _ _ (fresh prepared policy references deliveries).drain.cursor _ _ at hRead
  rwa [drain_over] at hRead

/-- A run over a first answer that cannot be judged is stuck in validation. -/
theorem drain_stuck {digits : Text} (hUnjudgeable : deliveries.Unjudgeable digits) :
    (fresh prepared policy references deliveries).drain.Stuck (.oversizedFactor digits.length) := by
  have hHistory := drain_history prepared policy references deliveries
  have hRaised := hHistory.raised_of_unjudgeable hUnjudgeable
  rw [hRaised] at hHistory
  obtain ⟨-, hStage, hOutcome, hError, hUnclosed⟩ := hHistory.unjudgeable_of_raised
  exact ⟨hRaised, drain_over .., hStage, hOutcome, hError, hUnclosed⟩

/-- Every run ends. It completes, with one closing event as its last, exactly when the code of a
complete first answer can be judged; otherwise it is stuck in validation. -/
theorem drain_completes_iff :
    ((fresh prepared policy references deliveries).drain.Completes ↔
      ¬∃ digits, deliveries.Unjudgeable digits) ∧
    ∀ digits, deliveries.Unjudgeable digits →
      (fresh prepared policy references deliveries).drain.Stuck
        (.oversizedFactor digits.length) := by
  refine ⟨⟨?_, ?_⟩, fun digits => drain_stuck prepared policy references deliveries⟩
  · rintro hCompletes ⟨digits, hUnjudgeable⟩
    exact hCompletes.not_stuck _ (drain_stuck prepared policy references deliveries hUnjudgeable)
  · intro hJudgeable
    have hHistory := drain_history prepared policy references deliveries
    cases hRaised : (fresh prepared policy references deliveries).drain.raised with
    | none =>
        rw [hRaised] at hHistory
        obtain ⟨hFinal, hClosing⟩ := hHistory.concludes.closing
        exact ⟨hRaised, drain_over .., hFinal, hClosing⟩
    | some fault =>
        rw [hRaised] at hHistory
        obtain ⟨⟨digits, hUnjudgeable, -⟩, -⟩ := hHistory.unjudgeable_of_raised
        exact absurd ⟨digits, hUnjudgeable⟩ hJudgeable

end

/-- Code with one call of `fast` shows two signs of pattern code: a voice and a note. -/
theorem looksLikeCode_factorCode (n : Nat) :
    Response.looksLikeCode (Validation.factorCode n) := by
  have hVoice : (Validation.factorCode n).contains Measure.voiceMarker = true := rfl
  have hNote : Text.anywhere (fun u => (Call.named? "note" u).isSome)
      (Validation.factorCode n) = true := rfl
  have hCount : 2 ≤ (Response.signs (Validation.factorCode n)).count true := by
    rw [Response.signs, hVoice, hNote]
    simp only [List.count_cons, BEq.rfl, if_true, List.count_nil]
    omega
  simp [Response.looksLikeCode, hCount]

theorem artifact_factorCode (n : Nat) :
    Response.artifact (Validation.factorCode (n + 1)) = .ok (Validation.factorCode (n + 1)) := by
  refine Response.artifact_eq_self ?_ ?_ ?_ (looksLikeCode_factorCode _)
  · intro c hc
    obtain rfl := Option.some.inj hc
    decide
  · simp [Validation.factorCode, List.getLast?_cons, List.getLast?_replicate]
    decide
  · simp [Validation.factorCode]
    decide

def oversizedDeliveries : Deliveries :=
  Deliveries.ofList [.streamed [Validation.factorCode 4301] none]
    (.other "ConnectionError" "no further answer")

/-- A run over code with a factor of 4301 digits does not complete: it raises. -/
theorem drain_not_completes_at_oversized_factor :
    ¬(fresh ⟨⟨some "techno", .new, none, [], none, some "sk-ant-test"⟩, "claude-sonnet-4-5",
      .anthropic, "sk-ant-test", [], "techno"⟩ .standard none oversizedDeliveries).drain.Completes
    := by
  intro hCompletes
  have hUnjudgeable : oversizedDeliveries.Unjudgeable (List.replicate 4301 '7') := by
    refine ⟨[Validation.factorCode 4301], none, Validation.factorCode 4301, rfl, ?_,
      Validation.stopsAt_factorCode (Nat.le_refl 4300)⟩
    rw [List.flatten_singleton]
    exact artifact_factorCode 4300
  exact hCompletes.not_stuck _ (drain_stuck _ _ _ _ hUnjudgeable)

end Task

end Composer
