import Composer.Proofs.Generation.Sharing
import Composer.Proofs.Provider.Signals

/-!
The streams of a provider while a task is read: which of them are opened and closed, and in what
order. Every step of reading lets the newest stream go on or sets up another one. Wherever the
reader stops, nothing is left open behind it.
-/

namespace Composer

namespace Task

def playbacks (t : Task) : List Playback := t.attempts.map (·.playback)

/-- What happens to the streams while up to `limit` events are read. No step changes more than one
of them; see `pull_moved`. -/
def readSignals : (limit : Nat) → Task → Cursor → List StreamSignal
  | 0, _, _ => []
  | limit + 1, t, cursor =>
    match t.pull cursor with
    | (.event _, t', cursor') =>
      streamSignals t.playbacks t'.playbacks ++ readSignals limit t' cursor'
    | (_, t', _) => streamSignals t.playbacks t'.playbacks

/-- What happens to the streams while up to `limit` events are read by a new cursor, which then
stops. -/
def visitSignals (limit : Nat) (t : Task) : List StreamSignal :=
  t.readSignals limit .unstarted ++
    streamSignals (t.read limit .unstarted).task.playbacks (t.readThenClose limit).task.playbacks

@[simp] theorem playbacks_addAttempt (t : Task) (userPrompt : Text) :
    (t.addAttempt userPrompt).playbacks =
      t.playbacks ++ [.waiting (t.deliveries t.attempts.length)] := by
  simp [addAttempt, playbacks]

theorem playbacks_updateLast {t : Task} {a : Attempt} (hLast : t.attempts.getLast? = some a)
    (f : Attempt → Attempt) :
    ∃ before, t.playbacks = before ++ [a.playback] ∧
      (t.updateLast f).playbacks = before ++ [(f a).playback] := by
  obtain ⟨before, hAttempts⟩ := List.getLast?_eq_some_iff.1 hLast
  exact ⟨before.map (·.playback), by simp [playbacks, hAttempts],
    by simp [playbacks, updateLast, hAttempts]⟩

theorem playbacks_updateLast_eq (t : Task) {f : Attempt → Attempt}
    (hSame : ∀ a, (f a).playback = a.playback) : (t.updateLast f).playbacks = t.playbacks := by
  cases hLast : t.attempts.getLast? with
  | none => simp [updateLast, hLast]
  | some a =>
      obtain ⟨before, hBefore, hAfter⟩ := playbacks_updateLast hLast f
      rw [hAfter, hBefore, hSame]

/-- Going to another stage leaves the streams to what comes after. -/
theorem playbacks_advancing {t : Task} {target : Stage} {rest : Task → Pulled × Task × Cursor}
    {holds : List Playback → Prop} (hHere : holds t.playbacks)
    (hRest : ∀ t' : Task, t'.playbacks = t.playbacks → holds (rest t').2.1.playbacks) :
    holds (t.advancing target rest).2.1.playbacks := by
  unfold advancing advance
  split
  · next t' hAdvance =>
      split at hAdvance
      · obtain rfl := Except.ok.inj hAdvance
        exact hRest _ rfl
      · exact absurd hAdvance (by simp)
  · exact hHere

@[simp] theorem playbacks_fail (t : Task) (error : TaskError) :
    (t.fail error).2.1.playbacks = t.playbacks :=
  @playbacks_advancing { t with error := some error } .failed _ (· = t.playbacks) rfl
    fun _ h => h

@[simp] theorem playbacks_accept (t : Task) (a : Attempt) (target : Stage) :
    (t.accept a target).2.1.playbacks = t.playbacks := by
  unfold accept
  cases Response.finishedArtifact a.text with
  | error fault => exact playbacks_fail t _
  | ok code =>
      exact @playbacks_advancing { t with outcome := some (.success code none) } target _
        (· = t.playbacks) rfl fun _ h => h

/-- Judging an answer does nothing to the streams. -/
@[simp] theorem playbacks_judge (t : Task) (a : Attempt) :
    (t.judge a).2.1.playbacks = t.playbacks := by
  refine @playbacks_advancing t .validating _ (· = t.playbacks) rfl fun t' hSame => ?_
  cases Response.artifact a.text with
  | error fault => exact (playbacks_fail t' _).trans hSame
  | ok code =>
      simp only
      cases validate t'.policy code with
      | error fault => exact hSame
      | ok verdict =>
          have hRecorded : (t'.updateLast fun a => { a with verdict := some verdict }).playbacks =
              t.playbacks := by
            rw [playbacks_updateLast_eq _ (by simp), hSame]
          simp only
          split
          · exact (playbacks_accept ..).trans hRecorded
          · exact @playbacks_advancing _ .retrying _ (· = t.playbacks) hRecorded
              fun _ h => h.trans hRecorded

/-- Reading a stream lets it go on. -/
theorem stream_continued (t : Task) : Continued t.playbacks t.stream.2.1.playbacks := by
  unfold stream
  cases hLast : t.attempts.getLast? with
  | none => exact .kept _
  | some a =>
      have hOnward := a.playback.onward_next
      have hUpdate : ∀ f : Attempt → Attempt, (f a).playback = a.playback.next.2 →
          Continued t.playbacks (t.updateLast f).playbacks := by
        intro f hNext
        obtain ⟨before, hBefore, hAfter⟩ := playbacks_updateLast hLast f
        rw [hBefore, hAfter, hNext]
        exact .went before hOnward
      simp only
      cases hNext : a.playback.next with
      | mk step playback =>
          rw [hNext] at hUpdate
          cases step with
          | text chunk => exact hUpdate _ rfl
          | failed error =>
              rw [playbacks_fail]
              exact hUpdate _ rfl
          | ended =>
              simp only
              split
              · rw [playbacks_judge]
                exact hUpdate _ rfl
              · rw [playbacks_accept]
                exact hUpdate _ rfl

/-- The step lemma: a pull lets the newest stream go on, or sets up another one. -/
theorem pull_moved (t : Task) (cursor : Cursor) :
    Moved t.playbacks (t.pull cursor).2.1.playbacks := by
  cases cursor with
  | unstarted =>
      by_cases hIdle : t.stage = .idle
      · rw [pull, if_pos hIdle]
        refine @playbacks_advancing _ .streaming stream (Moved t.playbacks) ?_ ?_
        · rw [playbacks_addAttempt]
          exact .added ..
        · intro t' hSame
          have hStream := t'.stream_continued
          rw [hSame, playbacks_addAttempt] at hStream
          exact hStream.added
      · rw [pull, if_neg hIdle]
        exact .continued (.kept _)
  | streaming => exact .continued t.stream_continued
  | announced =>
      unfold pull
      rw [playbacks_addAttempt]
      exact .added ..
  | cleared =>
      refine @playbacks_advancing t .streaming stream (Moved t.playbacks) (.continued (.kept _)) ?_
      intro t' hSame
      rw [← hSame]
      exact .continued t'.stream_continued
  | _ => exact .continued (.kept _)

/-- Closing a reader lets the newest stream go on. -/
theorem close_continued (t : Task) (cursor : Cursor) :
    Continued t.playbacks (t.close cursor).2.1.playbacks := by
  by_cases hStreaming : cursor = .streaming
  · subst hStreaming
    unfold close leave
    cases hLast : t.attempts.getLast? with
    | none => exact .kept _
    | some a =>
        obtain ⟨before, hBefore, hAfter⟩ := playbacks_updateLast hLast
          fun a => { a with playback := a.playback.release.2 }
        have hWent := Continued.went before a.playback.onward_release
        rw [← hBefore, ← hAfter] at hWent
        simp only
        split
        · exact hWent
        · rw [playbacks_fail]
          exact hWent
  · rw [close_of_ne_streaming t hStreaming]
    exact .kept _

/-- The run lemma: what happens to the streams while events are read adds up. -/
theorem readSignals_eq (limit : Nat) (t : Task) (cursor : Cursor) :
    streamSignals [] (t.read limit cursor).task.playbacks =
      streamSignals [] t.playbacks ++ t.readSignals limit cursor := by
  induction limit generalizing t cursor with
  | zero => exact (List.append_nil _).symm
  | succ limit ih =>
      have hMoved := (t.pull_moved cursor).streamSignals_eq
      unfold Task.read readSignals
      cases hPull : t.pull cursor with
      | mk answer rest =>
          rw [hPull] at hMoved
          cases answer with
          | event e => simp only [ih, hMoved, List.append_assoc]
          | exhausted => exact hMoved
          | raised fault => exact hMoved

theorem visitSignals_eq {t : Task} (hFresh : t.playbacks = []) (limit : Nat) :
    t.visitSignals limit = streamSignals [] (t.readThenClose limit).task.playbacks := by
  have hRead := t.readSignals_eq limit .unstarted
  have hClose := (Moved.continued ((t.read limit .unstarted).task.close_continued
    (t.read limit .unstarted).cursor)).streamSignals_eq
  rw [hFresh] at hRead
  rw [hRead] at hClose
  exact hClose.symm

section
variable {base : Task}

theorem Complete.isOver {before : List Attempt} {a : Attempt} (hComplete : Complete base before a) :
    a.playback.isOver := by
  rw [hComplete.closed]
  rfl

theorem BreaksOff.isOver {before : List Attempt} {a : Attempt} {error : Raised}
    (hBreaks : BreaksOff base before a error) : a.playback.isOver := by
  cases hBreaks with
  | refused hDelivery hChunks hPlayback => rw [hPlayback]; rfl
  | streamed leaving hDelivery hPlayback => rw [hPlayback]; rfl

/-- Once the newest stream is over, all of them are. -/
theorem Opening.released {before : List Attempt} {prior : List Event} {a : Attempt}
    (hOpening : Opening base before prior) (hOver : a.playback.isOver) :
    Released ((before ++ [a]).map (·.playback)) := by
  refine .ended fun p hMem => ?_
  cases hOpening with
  | first =>
      obtain rfl := List.mem_singleton.1 hMem
      exact hOver
  | @second b code verdict hJudged hInvalid =>
      simp only [List.singleton_append, List.map_cons, List.map_nil, List.mem_cons,
        List.not_mem_nil, or_false] at hMem
      rcases hMem with rfl | rfl
      · exact hJudged.complete.isOver
      · exact hOver

/-- Where no attempt is being streamed, nothing is left to close. -/
theorem History.released {t : Task} {cursor : Cursor} {events : List Event}
    {raised : Option TaskFault} (hHistory : History base t cursor events raised)
    (hQuiet : cursor ≠ .streaming) : Released t.playbacks := by
  have hFirst : Opening base [] [] := .first
  cases hHistory with
  | unread => exact .ended fun p hMem => absurd hMem List.not_mem_nil
  | streaming => exact absurd rfl hQuiet
  | brokenOff hOpening hBegun hVerdict hBreaks => exact hOpening.released hBreaks.isOver
  | unextracted hBegun hVerdict hComplete hArtifact => exact hFirst.released hComplete.isOver
  | unjudged hBegun hVerdict hComplete hArtifact hValidate =>
      exact hFirst.released hComplete.isOver
  | announced hJudged hInvalid => exact hFirst.released hJudged.complete.isOver
  | @cleared a b code verdict hJudged hInvalid hBegun hVerdict hChunks hPlayback =>
      refine @Released.setUp [a.playback] b.playback (fun p hMem => ?_) (by rw [hPlayback]; rfl)
      obtain rfl := List.mem_singleton.1 hMem
      exact hJudged.complete.isOver
  | finished hOpening hPassed hFinished => exact hOpening.released hPassed.complete.isOver
  | unfinished hOpening hPassed hFinished => exact hOpening.released hPassed.complete.isOver

/-- Wherever a reader is closed, nothing is left to close then. -/
theorem History.close_released {t : Task} {cursor : Cursor} {events : List Event}
    {raised : Option TaskFault} (hHistory : History base t cursor events raised) :
    Released (t.close cursor).2.1.playbacks := by
  by_cases hStreaming : cursor = .streaming
  · subst hStreaming
    cases hHistory with
    | @streaming before prior a rest ending leaving hOpening hBegun hVerdict hDelivery hPlayback =>
        have hClosed : Released _ :=
          hOpening.released (rfl : ({ a with playback := .closed } : Attempt).playback.isOver)
        unfold close leave
        rw [getLast?_standing]
        simp only [updateLast_standing, hPlayback, Playback.release]
        cases leaving with
        | none => exact hClosed
        | some error =>
            simp only [playbacks_fail]
            exact hClosed
  · rw [close_of_ne_streaming t hStreaming]
    exact hHistory.released hStreaming

end

theorem length_askedPrompts (t : Task) :
    t.askedPrompts.length = t.playbacks.countP Playback.isRequested := by
  rw [askedPrompts, List.length_map, playbacks, List.countP_map, List.countP_eq_length_filter]
  rfl

/-- No stream is leaked. Wherever the reader of a task stops: the streams that were asked for, at
most two, were opened one after the other and each closed once, before the next was opened. When the
reader has come to its end, closing it closes nothing more. -/
theorem streams_released (prepared : PreparedRequest) (policy : Policy)
    (references : Option ReferenceSource) (deliveries : Deliveries) (limit : Nat) :
    let t := fresh prepared policy references deliveries
    let asked := (t.readThenClose limit).task.askedPrompts.length
    t.visitSignals limit = (List.range asked).flatMap (fun n => [.opened n, .closed n]) ∧
    asked ≤ 2 ∧
    ((t.read limit .unstarted).cursor = .over →
      t.readSignals limit .unstarted = t.visitSignals limit) := by
  intro t asked
  have hHistory := read_history prepared policy references deliveries limit
  have hContinued := (t.read limit .unstarted).task.close_continued (t.read limit .unstarted).cursor
  refine ⟨?_, ?_, fun hOver => ?_⟩
  · rw [visitSignals_eq rfl limit]
    exact hHistory.close_released.streamSignals_eq.trans (by rw [← length_askedPrompts]; rfl)
  · have hTwo : (t.read limit .unstarted).task.playbacks.length ≤ 2 := by
      rw [playbacks, List.length_map]
      exact hHistory.consistent.retried.atMostTwo
    rw [← hContinued.length_eq] at hTwo
    refine Nat.le_trans (Nat.le_of_eq (length_askedPrompts _)) ?_
    exact Nat.le_trans List.countP_le_length hTwo
  · have hSame : (t.readThenClose limit).task = (t.read limit .unstarted).task := by
      change ((t.read limit .unstarted).task.close (t.read limit .unstarted).cursor).2.1 = _
      rw [hOver]
      rfl
    rw [visitSignals, hSame, streamSignals_eq_nil List.prefix_rfl, List.append_nil]

end Task

end Composer
