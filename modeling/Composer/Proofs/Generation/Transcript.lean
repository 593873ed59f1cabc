import Composer.Proofs.Generation.Sharing
import Composer.Proofs.Stream.Frames

/-!
What a server sends for one reading of a task, as a reader of the frames sees it: the deltas of one
attempt and how it ended, or those of two attempts with the announcement and the clearing between
them. A fault that comes while the events are read is sent as the last frame. Only between the
announcement and the clearing it leaves another shape behind.
-/

namespace Composer

/-- The events of the frames that a text is made of; nothing if a line is neither empty nor a frame
of no more than two levels. -/
def Event.ofFrames? (t : Text) : Option (List HeardEvent) :=
  (t.lines.filter fun line => !line.isEmpty).mapM fun line => (ofLine 2 line).toOption.join

theorem Event.ofFrames?_frames (events : List Event) :
    ofFrames? (frames events) = some (events.map heard) := by
  have hLine : ∀ e : Event, e.line.isEmpty = false := fun _ => rfl
  have hLines : ((frames events).lines.filter fun line => !line.isEmpty) = events.map line := by
    rw [lines_frames]
    simp [frameLines, List.filter_flatMap, hLine, ← List.map_eq_flatMap]
  rw [ofFrames?, hLines]
  clear hLines
  induction events with
  | nil => rfl
  | cons e events ih =>
      rw [List.map_cons, List.mapM_cons, ofLine_line le_rfl, ih]
      rfl

/-- The events of a whole stream: what comes last, and nothing before it, ends the stream. -/
inductive Transcript : List Event → Prop where
  /-- One attempt, and how it ended. -/
  | once (texts : List Text) {last : Event} (hLast : last.isTerminal) :
      Transcript (texts.map .delta ++ [last])
  /-- A first attempt, the announcement of a second, which starts over, and how that ended. -/
  | twice (texts more : List Text) {last : Event} (hLast : last.isTerminal) :
      Transcript
        (texts.map .delta ++ [.status Task.retryStatus, .clear] ++ more.map .delta ++ [last])

/-- A stream says that the code is there only at its end. -/
theorem Transcript.getLast?_of_done {events : List Event} (hTranscript : Transcript events)
    (hDone : .done ∈ events) : events.getLast? = some .done := by
  cases hTranscript with
  | @once texts last hLast =>
      rw [List.getLast?_concat]
      simpa [eq_comm] using hDone
  | @twice texts more last hLast =>
      rw [List.getLast?_concat]
      simpa [eq_comm] using hDone

/-- A reading into which a fault comes, if it is not at its end. -/
def Readout.crash (r : Readout) (fault : TaskFault) : Readout :=
  if r.cursor = .over then r else { r with raised := some fault }

/-- A reading that is not quietly over ends with a fault. -/
theorem Readout.exists_crash_eq {r : Readout} (hOpen : ¬(r.cursor = .over ∧ r.raised = none))
    (fault : TaskFault) : ∃ raised, r.crash fault = { r with raised := some raised } := by
  by_cases hOver : r.cursor = .over
  · cases hRaised : r.raised with
    | none => exact absurd ⟨hOver, hRaised⟩ hOpen
    | some earlier => exact ⟨earlier, by rw [crash, if_pos hOver, ← hRaised]⟩
  · exact ⟨fault, by rw [crash, if_neg hOver]⟩

/-- What is sent for a reading. -/
structure Readout.Sends (r : Readout) (events : List Event) : Prop where
  /-- It is a whole stream, unless reading stopped right after the announcement. -/
  whole : r.cursor ≠ .announced → Transcript events
  /-- There the announcement is followed by the report of the fault. -/
  announced : r.cursor = .announced → ∃ texts : List Text,
    events = texts.map .delta ++ [.status Task.retryStatus, .error "stream error"]
  /-- It says that the code is there only if it is. -/
  succeeded : .done ∈ events → r.raised = none ∧ ∃ code, r.task.outcome = some (.success code none)

namespace Task

theorem sentEvents_of_raised {r : Readout} {fault : TaskFault} (h : r.raised = some fault) :
    sentEvents r = r.events ++ [.error "stream error"] := by
  simp [sentEvents, Readout.events, h]

theorem sentEvents_of_quiet {r : Readout} (h : r.raised = none) : sentEvents r = r.events := by
  simp [sentEvents, Readout.events, h]

section
variable {base : Task}

theorem Opening.transcript {before : List Attempt} {prior : List Event} (a : Attempt) {last : Event}
    (hOpening : Opening base before prior) (hLast : last.isTerminal) :
    Transcript (prior ++ a.deltas ++ [last]) := by
  cases hOpening with
  | first => exact .once a.chunks hLast
  | @second b code verdict hJudged hInvalid => exact .twice b.chunks a.chunks hLast

/-- Reading to the end without a fault sends a whole stream. -/
theorem History.transcript {t : Task} {events : List Event}
    (hHistory : History base t .over events none) : Transcript events := by
  cases hHistory with
  | @brokenOff before prior a error hOpening hBegun hVerdict hBreaks =>
      exact hOpening.transcript a rfl
  | @unextracted a fault hBegun hVerdict hComplete hArtifact => exact .once a.chunks rfl
  | @finished before prior a target code hOpening hPassed hFinished =>
      exact hOpening.transcript a rfl
  | @unfinished before prior a target fault hOpening hPassed hFinished =>
      exact hOpening.transcript a rfl

/-- Where a fault comes after the announcement, the announcement was the last event. -/
theorem History.events_announced {t : Task} {events : List Event} {raised : Option TaskFault}
    (hHistory : History base t .announced events raised) :
    ∃ texts : List Text, events = texts.map .delta ++ [.status retryStatus] := by
  cases hHistory with
  | @announced a code verdict hJudged hInvalid => exact ⟨a.chunks, rfl⟩

/-- Anywhere else, the report of a fault makes the stream whole. -/
theorem History.transcript_of_fault {t : Task} {cursor : Cursor} {events : List Event}
    {raised : Option TaskFault} (hHistory : History base t cursor events raised)
    (hFault : cursor = .over → raised ≠ none) (hCursor : cursor ≠ .announced) (message : Text) :
    Transcript (events ++ [.error message]) := by
  cases hHistory with
  | unread => exact .once [] rfl
  | @streaming before prior a rest ending leaving hOpening hBegun hVerdict hDelivery hPlayback =>
      exact hOpening.transcript a rfl
  | @unjudged a code error hBegun hVerdict hComplete hArtifact hValidate =>
      exact .once a.chunks rfl
  | announced hJudged hInvalid => exact absurd rfl hCursor
  | @cleared a b code verdict hJudged hInvalid hBegun hVerdict hChunks hPlayback =>
      have hTwice : Transcript (_ ++ [] ++ [.error message]) := .twice a.chunks [] rfl
      rwa [List.append_nil] at hTwice
  | brokenOff => exact absurd rfl (hFault rfl)
  | unextracted => exact absurd rfl (hFault rfl)
  | finished => exact absurd rfl (hFault rfl)
  | unfinished => exact absurd rfl (hFault rfl)

/-- A reading that has sent the end of the stream has led to code. -/
theorem History.outcome_of_done {t : Task} {events : List Event}
    (hHistory : History base t .over events none) (hDone : .done ∈ events) :
    ∃ code, t.outcome = some (.success code none) := by
  have hLast := hHistory.transcript.getLast?_of_done hDone
  cases hHistory.concludes with
  | succeeded hOpen hStage hFinished hOutcome => exact ⟨_, hOutcome⟩
  | failed hOpen hStage hError =>
      rw [List.getLast?_concat] at hLast
      exact absurd (Option.some.inj hLast) nofun

/-- What is sent for a reading with a history, and for one that a fault came into. -/
theorem History.sends_crash {r : Readout}
    (hHistory : History base r.task r.cursor r.events r.raised) (fault : TaskFault) :
    (r.crash fault).Sends (sentEvents (r.crash fault)) := by
  by_cases hQuiet : r.cursor = .over ∧ r.raised = none
  · obtain ⟨hOver, hRaised⟩ := hQuiet
    rw [Readout.crash, if_pos hOver, sentEvents_of_quiet hRaised]
    rw [hOver, hRaised] at hHistory
    refine ⟨fun _ => hHistory.transcript, fun h => ?_, fun hDone => ⟨hRaised, ?_⟩⟩
    · exact Cursor.noConfusion (hOver.symm.trans h)
    · exact hHistory.outcome_of_done hDone
  · obtain ⟨raised, hCrash⟩ := Readout.exists_crash_eq hQuiet fault
    have hNotOver : r.cursor = .over → r.raised ≠ none :=
      fun hOver hRaised => hQuiet ⟨hOver, hRaised⟩
    rw [hCrash, sentEvents_of_raised rfl]
    change Readout.Sends _ (r.events ++ _)
    by_cases hAnnounced : r.cursor = .announced
    · rw [hAnnounced] at hHistory
      obtain ⟨texts, hEvents⟩ := hHistory.events_announced
      refine ⟨fun h => absurd hAnnounced h, fun _ => ⟨texts, ?_⟩, fun hDone => ?_⟩
      · rw [hEvents, List.append_assoc]
        rfl
      · rw [hEvents] at hDone
        exact absurd hDone (by simp)
    · have hWhole := hHistory.transcript_of_fault hNotOver hAnnounced "stream error"
      refine ⟨fun _ => hWhole, fun h => absurd h hAnnounced, fun hDone => ?_⟩
      have hLast := hWhole.getLast?_of_done hDone
      rw [List.getLast?_concat] at hLast
      exact absurd (Option.some.inj hLast) nofun

end

/-- A reader that comes too late is refused; all that is sent is the report of a fault. -/
theorem sends_crash_of_busy {t : Task} (hBusy : t.stage ≠ .idle) (limit : Nat) (fault : TaskFault) :
    ((t.read limit .unstarted).crash fault).Sends
      (sentEvents ((t.read limit .unstarted).crash fault)) := by
  have hReport : sentEvents ((t.read limit .unstarted).crash fault) = [.error "stream error"] := by
    cases limit with
    | zero => rfl
    | succ limit => simp [Task.read, pull, raise, hBusy, Readout.crash, sentEvents]
  have hCursor : ((t.read limit .unstarted).crash fault).cursor ≠ .announced := by
    cases limit with
    | zero => exact Cursor.noConfusion
    | succ limit => simp [Task.read, pull, raise, hBusy, Readout.crash]
  rw [hReport]
  exact ⟨fun _ => .once [] rfl, fun h => absurd h hCursor, fun h => absurd h (by simp)⟩

end Task

section
variable (prepared : PreparedRequest) (policy : Policy) (references : Option ReferenceSource)
  (deliveries : Deliveries)

/-- The readers of a task find it unread, or led by one of them. -/
theorem Sharing.run_fresh_or_busy (actions : List Action) :
    (run (Task.fresh prepared policy references deliveries) actions).task =
        Task.fresh prepared policy references deliveries ∨
      (run (Task.fresh prepared policy references deliveries) actions).task.stage ≠ .idle := by
  have hStart : Ruled (Task.fresh prepared policy references deliveries) []
      (start (Task.fresh prepared policy references deliveries)) :=
    .vacant rfl rfl rfl fun i => rfl
  cases hStart.run actions with
  | vacant hNone hTask hSent hOthers => exact .inl hTask
  | led hSome hVisit hSent hOthers => exact .inr hVisit.stage_ne_idle

/-- Whoever reads a task, whatever its other readers did before, is sent a whole stream, which says
that the code is there only if it is. A fault that comes after any number of events is sent as the
last of them, and makes the stream whole unless it comes between the announcement and the
clearing. -/
theorem Sharing.sends_transcript (actions : List Action) :
    let t := (run (Task.fresh prepared policy references deliveries) actions).task
    (∃ events, Event.ofFrames? t.body = some (events.map Event.heard) ∧ Transcript events ∧
      (.done ∈ events → ∃ code, t.drain.task.outcome = some (.success code none))) ∧
    ∀ limit fault, ∃ events,
      Event.ofFrames? (Event.frames (Task.sentEvents ((t.read limit .unstarted).crash fault))) =
        some (events.map Event.heard) ∧
      ((t.read limit .unstarted).crash fault).Sends events := by
  intro t
  have hFound : t = Task.fresh prepared policy references deliveries ∨ t.stage ≠ .idle :=
    run_fresh_or_busy prepared policy references deliveries actions
  have hSends : ∀ limit fault, ((t.read limit .unstarted).crash fault).Sends
      (Task.sentEvents ((t.read limit .unstarted).crash fault)) := by
    intro limit fault
    rcases hFound with hFresh | hBusy
    · rw [hFresh]
      exact (Task.read_history prepared policy references deliveries limit).sends_crash fault
    · exact Task.sends_crash_of_busy hBusy limit fault
  have hOver : t.drain.cursor = .over := by
    rcases hFound with hFresh | hBusy
    · rw [hFresh]
      exact Task.drain_over ..
    · simp [Task.drain, Task.pullLimit, Task.read, Task.pull, Task.raise, hBusy]
  refine ⟨⟨_, Event.ofFrames?_frames _, ?_⟩, fun limit fault => ⟨_, Event.ofFrames?_frames _,
    hSends limit fault⟩⟩
  have hDrain := hSends t.pullLimit .alreadyRun
  change (t.drain.crash .alreadyRun).Sends (Task.sentEvents (t.drain.crash .alreadyRun)) at hDrain
  rw [Readout.crash, if_pos hOver] at hDrain
  refine ⟨hDrain.whole fun h => ?_, fun hDone => (hDrain.succeeded hDone).2⟩
  exact Cursor.noConfusion (hOver.symm.trans h)

end

end Composer
