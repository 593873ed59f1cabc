import Composer.Proofs.Json.RoundTrip
import Composer.Proofs.Stream.Lines

/-! Reading frames back. The payload of a frame has no control characters, so a frame is one line
and an empty one, and the event on that line is the event that was framed. With this, the frames of
events give the reader the events themselves, and leave it where the events lead. A payload is
nested two levels at most, and so much room the reader needs. -/

namespace Composer

namespace Event

theorem heard_injective {e f : Event} (h : e.heard = f.heard) : e = f := by
  have hLegible (e : Event) : e.heard.map WideText.legible = e := by
    cases e with
    | delta t => exact congrArg _ (WideText.legible_widen t)
    | status s => exact congrArg _ (WideText.legible_widen s)
    | clear => rfl
    | error message => exact congrArg _ (WideText.legible_widen message)
    | done => rfl
  rw [← hLegible e, h, hLegible]

theorem ofJson_toJson (e : Event) : HeardEvent.ofJson e.toJson = .sound e.heard := by
  cases e with
  | delta t => rfl
  | status s => rfl
  | clear => rfl
  | error message => rfl
  | done => rfl

theorem textual_toJson (e : Event) : Json.Textual 2 e.toJson := by
  have hNested : ∀ levels name t, Json.Textual (levels + 1) (.obj [(name, .str t)]) := by
    intro levels name t
    exact .obj (List.cons_ne_nil _ _) (List.pairwise_singleton _ _)
      (List.forall_mem_singleton.2 (.str t))
  have hTagged : ∀ tag name item, name ≠ ("type" : Text) → Json.Textual 1 item →
      Json.Textual 2 (.obj [("type", .str tag), (name, item)]) := by
    intro tag name item hName hItem
    refine .obj (List.cons_ne_nil _ _) ?_ ?_
    · refine List.nodup_cons.2 ⟨fun h => hName (List.mem_singleton.1 h).symm, ?_⟩
      exact List.pairwise_singleton _ _
    · exact List.forall_mem_cons.2 ⟨.str tag, List.forall_mem_singleton.2 hItem⟩
  cases e with
  | delta t => exact hTagged _ _ _ (by decide) (hNested 0 _ t)
  | status s => exact hTagged _ _ _ (by decide) (.str s)
  | clear => exact hNested 1 _ _
  | error message => exact hTagged _ _ _ (by decide) (hNested 0 _ message)
  | done => exact hNested 1 _ _

theorem payload_of_ne_done {e : Event} (h : e ≠ .done) : e.payload = Json.write e.toJson := by
  cases e with
  | done => exact absurd rfl h
  | delta _ => rfl
  | status _ => rfl
  | clear => rfl
  | error _ => rfl

theorem printable_payload (e : Event) : Json.Printable e.payload := by
  by_cases hDone : e = .done
  · rw [hDone]
    exact (by decide : Json.Printable doneWord)
  · rw [payload_of_ne_done hDone]
    exact e.textual_toJson.printable

/-- A payload starts and ends with a bracket. -/
theorem exists_payload_eq (e : Event) :
    ∃ first middle last, e.payload = first :: (middle ++ [last]) ∧
      isBlank first = false ∧ isBlank last = false := by
  cases e with
  | done => exact ⟨'[', "DONE".toList, ']', rfl, rfl, rfl⟩
  | delta text => exact ⟨'\x7b', _, '\x7d', rfl, rfl, rfl⟩
  | status s => exact ⟨'\x7b', _, '\x7d', rfl, rfl, rfl⟩
  | clear => exact ⟨'\x7b', _, '\x7d', rfl, rfl, rfl⟩
  | error message => exact ⟨'\x7b', _, '\x7d', rfl, rfl, rfl⟩

theorem strip_payload (e : Event) : e.payload.strip = e.payload := by
  obtain ⟨first, middle, last, hPayload, hFirst, hLast⟩ := e.exists_payload_eq
  rw [hPayload]
  refine Text.trimWhere_eq_self ?_ ?_
  · rintro c hc
    obtain rfl := Option.some.inj hc
    exact hFirst
  · rw [← List.cons_append, List.getLast?_concat]
    rintro c hc
    obtain rfl := Option.some.inj hc
    exact hLast

def line (e : Event) : Text := frameStart ++ e.payload

theorem printable_line (e : Event) : Json.Printable e.line :=
  Json.printable_append.2 ⟨by decide, e.printable_payload⟩

theorem ne_of_mem_line {e : Event} {c control : Char} (hMem : c ∈ e.line)
    (hControl : control.toNat < 0x20) : c ≠ control := by
  rintro rfl
  exact Nat.not_le_of_lt hControl (e.printable_line c hMem)

section
variable {depth : Nat} (hDepth : 2 ≤ depth)
include hDepth

/-- The line of a frame gives the event that was framed. -/
theorem ofLine_line (e : Event) : ofLine depth e.line = .ok (some e.heard) := by
  unfold ofLine line
  rw [Text.after?_append]
  simp only [strip_payload]
  by_cases hDone : e = .done
  · subst hDone
    rfl
  · have hStart : Json.write e.toJson ≠ doneWord := by
      cases e <;> exact fun h => absurd (List.cons.inj h).1 (by decide)
    rw [payload_of_ne_done hDone, if_neg hStart]
    have hRead : Json.read (Json.message depth) (Json.write e.toJson) = .ok e.toJson :=
      e.textual_toJson.read_write hDepth
    simp only [hRead, ofJson_toJson]

/-- A reader hears the event that was framed. -/
theorem onLine_line (e : Event) : onLine depth e.line = .ok (some e.heard) := by
  have hTrim : Text.trimEndWhere (· == '\r') e.line = e.line := by
    refine Text.trimEndWhere_eq_self fun c hc => beq_eq_false_iff_ne.2 ?_
    exact ne_of_mem_line (List.mem_of_getLast? hc) (by decide)
  rw [onLine, hTrim, ofLine_line hDepth]

end

theorem onLine_nil (depth : Nat) : onLine depth [] = .ok none := rfl

/-- The lines of the frames of events. -/
def frameLines (events : List Event) : List Text := events.flatMap fun e => [e.line, []]

/-- Only an error is heard as one. -/
theorem eq_error_of_heard_eq {e : Event} {message : WideText} (h : e.heard = .error message) :
    ∃ sent, e = .error sent := by
  cases e with
  | error sent => exact ⟨sent, rfl⟩
  | delta t => exact absurd h nofun
  | status s => exact absurd h nofun
  | clear => exact absurd h nofun
  | done => exact absurd h nofun

section
variable {depth : Nat} (hDepth : 2 ≤ depth)
include hDepth

theorem passes_of_mem_frameLines {events : List Event} (hErrors : ∀ message, .error message ∉ events) :
    ∀ line ∈ frameLines events, Passes depth line := by
  intro line hLine
  obtain ⟨e, hEvent, hLine⟩ := List.mem_flatMap.1 hLine
  rcases List.mem_cons.1 hLine with rfl | hLine
  · refine ⟨some e.heard, onLine_line hDepth e, fun message hSame => ?_⟩
    obtain ⟨sent, rfl⟩ := eq_error_of_heard_eq (Option.some.inj hSame)
    exact hErrors sent hEvent
  · exact ⟨none, List.mem_singleton.1 hLine ▸ onLine_nil depth, fun message => nofun⟩

/-- The lines of frames hold the events that were framed. -/
theorem onLines_frameLines (events : List Event) :
    onLines depth (frameLines events) = events.map heard := by
  induction events with
  | nil => rfl
  | cons e events ih =>
      change onLines depth (e.line :: [] :: frameLines events) = e.heard :: events.map heard
      rw [onLines_cons, onLines_cons, onLine?_of_ok (onLine_line hDepth e),
        onLine?_of_ok (onLine_nil depth), ih]
      rfl

end

theorem lines_frames (events : List Event) :
    (frames events).lines = frameLines events ++ [[]] := by
  induction events with
  | nil => rfl
  | cons e events ih =>
      have hLine : Text.lineFeed ∉ e.line := fun h => ne_of_mem_line h (by decide) rfl
      have hFrames : frames (e :: events) =
          e.line ++ Text.lineFeed :: ([] ++ Text.lineFeed :: frames events) := by
        simp [frames, frame, line]
      rw [hFrames, Text.lines_append_cons hLine, Text.lines_append_cons List.not_mem_nil, ih]
      rfl

end Event

namespace StreamReader

theorem completeLines_frames (events : List Event) :
    completeLines (Event.frames events) = Event.frameLines events := by
  rw [completeLines, Event.lines_frames, List.dropLast_concat]

theorem openLine_frames (events : List Event) : openLine (Event.frames events) = [] := by
  rw [openLine, Event.lines_frames, List.getLastD_eq_getLast?, List.getLast?_concat]
  rfl

section
variable {depth : Nat} (hDepth : 2 ≤ depth) {chunks : List Text}
include hDepth

/-- The frames of events without an error give the events, wherever the stream is cut. -/
theorem feedAll_frames {events : List Event} (hErrors : ∀ message, .error message ∉ events)
    (hChunks : chunks.flatten = Event.frames events) :
    fresh.feedAll depth chunks =
      ((events.map Event.heard).foldl after fresh, .ok (events.map Event.heard)) := by
  have hLines : completeLines chunks.flatten = Event.frameLines events := by
    rw [hChunks, completeLines_frames]
  have hPending := foldl_after_pending (events.map Event.heard) fresh
  rw [feedAll_of_passes (hLines ▸ Event.passes_of_mem_frameLines hDepth hErrors), hLines,
    Event.onLines_frameLines hDepth, hChunks, openLine_frames]
  exact Prod.ext ((congrArg (keeping _) hPending.symm).trans (keeping_pending _)) rfl

/-- The frames of events that end in an error give its message, wherever the stream is cut. -/
theorem feedAll_frames_error {prior : List Event} (hErrors : ∀ message, .error message ∉ prior)
    {message : Text} (hChunks : chunks.flatten = Event.frames (prior ++ [.error message])) :
    (fresh.feedAll depth chunks).2 =
      .error (.reported (Text.widen (if message.isEmpty then "stream error" else message))) := by
  have hLines : completeLines chunks.flatten =
      Event.frameLines prior ++ Event.line (.error message) :: [[]] := by
    rw [hChunks, completeLines_frames]
    exact List.flatMap_append
  obtain ⟨kept, hAll⟩ := feedAll_of_error hLines (Event.passes_of_mem_frameLines hDepth hErrors)
    (Event.onLine_line hDepth _)
  rw [hAll]
  cases message with
  | nil => rfl
  | cons c message => rfl

end

end StreamReader

namespace Event

theorem lines_frame (e : Event) : e.frame.lines = [e.line, [], []] := by
  have hFrame : frames [e] = e.frame := List.append_nil _
  rw [← hFrame, lines_frames]
  rfl

/-- A frame holds one event. -/
theorem eq_of_frame_eq {e f : Event} (h : e.frame = f.frame) : e = f := by
  have hLines : [e.line, [], []] = [f.line, [], []] := by
    rw [← lines_frame, ← lines_frame, h]
  have hSame : ofLine 2 e.line = ofLine 2 f.line := by rw [(List.cons.inj hLines).1]
  rw [ofLine_line le_rfl, ofLine_line le_rfl] at hSame
  exact heard_injective (Option.some.inj (Except.ok.inj hSame))

/-- Frames are read back as the events that were framed. Wherever the frames of events without an
error are cut, a new reader with room for two levels takes all of it in and hears exactly these
events. Every frame, that of an error too, is one line after `data: ` that no line feed and no
carriage return breaks, and an empty line; the line alone gives the event, so no two events share a
frame. -/
theorem frames_round_trip {depth : Nat} (hDepth : 2 ≤ depth) {events : List Event}
    {chunks : List Text} (hErrors : ∀ message, .error message ∉ events)
    (hChunks : chunks.flatten = frames events) :
    (∃ r, StreamReader.fresh.feedAll depth chunks = (r, .ok (events.map heard)) ∧
      r.pending = []) ∧
    (∀ e : Event, ∃ payload : Text, e.frame = "data: " ++ payload ++ ['\n', '\n'] ∧
      '\n' ∉ payload ∧ '\r' ∉ payload ∧ e.frame.lines.head? = some ("data: " ++ payload) ∧
      ofLine depth ("data: " ++ payload) = .ok (some e.heard)) ∧
    (∀ e f : Event, e.frame = f.frame → e = f) := by
  refine ⟨?_, fun e => ?_, fun e f => eq_of_frame_eq⟩
  · refine ⟨_, StreamReader.feedAll_frames hDepth hErrors hChunks, ?_⟩
    rw [StreamReader.foldl_after_pending]
    rfl
  · have hPlain : ∀ control : Char, control.toNat < 0x20 → control ∉ e.payload := by
      intro control hControl hMem
      exact Nat.not_le_of_lt hControl (e.printable_payload control hMem)
    refine ⟨e.payload, rfl, hPlain '\n' (by decide), hPlain '\r' (by decide), ?_,
      e.ofLine_line hDepth⟩
    rw [lines_frame]
    rfl

/-- Texts that look like frames, and like the end of one. -/
def deceptiveEvents : List Event :=
  [.delta "data: [DONE]\n\n\\\"\r", .status "\x00\x7d\u2028", .clear, .delta [], .done, .delta " "]

theorem frames_round_trip_of_deceptive :
    (∀ message, .error message ∉ deceptiveEvents) ∧
    (StreamReader.cutAt 70 (frames deceptiveEvents)).flatten = frames deceptiveEvents ∧
    ∃ r, StreamReader.fresh.feedAll 2 (StreamReader.cutAt 70 (frames deceptiveEvents)) =
      (r, .ok (deceptiveEvents.map heard)) ∧ r.pending = [] := by
  have hErrors : ∀ message, .error message ∉ deceptiveEvents := by
    intro message
    simp [deceptiveEvents]
  have hChunks := StreamReader.flatten_cutAt 70 (frames deceptiveEvents)
  exact ⟨hErrors, hChunks, (frames_round_trip le_rfl hErrors hChunks).1⟩

end Event

end Composer
