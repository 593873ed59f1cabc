import Composer.Proofs.Stream.Chunking

/-! What lines do to a reader. A line is decoded without the carriage returns at its end. It passes
when it can be decoded and no error is on it, and then the event on it, if there is one, is all that
counts; the first line that does not pass stops the reader there. -/

namespace Composer

namespace Event

/-- What a reader hears on a line. -/
def onLine (depth : Nat) (line : Text) : Except StreamFailure (Option HeardEvent) :=
  ofLine depth (Text.trimEndWhere (· == '\r') line)

/-- A line that lets a reader go on. -/
def Passes (depth : Nat) (line : Text) : Prop :=
  ∃ found, onLine depth line = .ok found ∧ ∀ message, found ≠ some (.error message)

/-- The event on a line that passes. -/
def onLine? (depth : Nat) (line : Text) : Option HeardEvent := (onLine depth line).toOption.join

/-- The events on lines that pass. -/
def onLines (depth : Nat) (lines : List Text) : List HeardEvent :=
  lines.filterMap (onLine? depth)

variable {depth : Nat}

theorem onLine?_of_ok {line : Text} {found : Option HeardEvent} (h : onLine depth line = .ok found) :
    onLine? depth line = found := by
  unfold onLine?
  rw [h]
  rfl

theorem onLine_of_toOption {line : Text} {found : Option HeardEvent}
    (h : (onLine depth line).toOption = some found) : onLine depth line = .ok found := by
  cases hLine : onLine depth line with
  | error failure => rw [hLine] at h; exact absurd h nofun
  | ok other => rw [hLine] at h; exact congrArg Except.ok (Option.some.inj h)

theorem onLines_cons (depth : Nat) (line : Text) (lines : List Text) :
    onLines depth (line :: lines) = (onLine? depth line).toList ++ onLines depth lines := by
  unfold onLines
  cases h : onLine? depth line with
  | none => rw [List.filterMap_cons_none h]; rfl
  | some e => rw [List.filterMap_cons_some h]; rfl

end Event

namespace StreamReader

open Event (onLine onLine? onLines Passes)

variable {depth : Nat}

/-- The reader after an event; an error event leaves it as it was. -/
def after (r : StreamReader) (e : HeardEvent) : StreamReader := (r.apply e).toOption.getD r

theorem apply_eq_ok_after (r : StreamReader) {e : HeardEvent} (h : ∀ message, e ≠ .error message) :
    r.apply e = .ok (r.after e) := by
  cases e with
  | error message => exact absurd rfl (h message)
  | delta t => rfl
  | status s => rfl
  | clear => rfl
  | done => rfl

theorem after_pending (r : StreamReader) (e : HeardEvent) : (r.after e).pending = r.pending := by
  cases e <;> rfl

theorem foldl_after_pending (events : List HeardEvent) (r : StreamReader) :
    (events.foldl after r).pending = r.pending := by
  induction events generalizing r with
  | nil => rfl
  | cons e events ih => rw [List.foldl_cons, ih, after_pending]

theorem feedLine_of_none {line : Text} (h : onLine depth line = .ok none) (r : StreamReader) :
    r.feedLine depth line = (r, .ok none) := by
  unfold onLine at h
  rw [feedLine, h]

theorem feedLine_of_some {line : Text} {e : HeardEvent} (h : onLine depth line = .ok (some e))
    (r : StreamReader) : r.feedLine depth line = (r.after e, (r.apply e).map fun _ => some e) := by
  unfold onLine at h
  rw [feedLine, h]
  cases e <;> rfl

/-- A line that passes takes the reader to where the event on it leads. -/
theorem feedLine_of_passes {line : Text} (h : Passes depth line) (r : StreamReader) :
    r.feedLine depth line = ((onLine? depth line).toList.foldl after r, .ok (onLine? depth line)) := by
  obtain ⟨found, hFound, hError⟩ := h
  rw [Event.onLine?_of_ok hFound]
  cases found with
  | none => exact feedLine_of_none hFound r
  | some e =>
      have hApply := r.apply_eq_ok_after fun message hSame => hError message (congrArg some hSame)
      rw [feedLine_of_some hFound, hApply]
      rfl

/-- Lines that pass take the reader to where the events on them lead. -/
theorem feedLines_of_passes {lines : List Text} (h : ∀ line ∈ lines, Passes depth line)
    (r : StreamReader) :
    r.feedLines depth lines =
      ((onLines depth lines).foldl after r, .ok (onLines depth lines)) := by
  induction lines generalizing r with
  | nil => rfl
  | cons line lines ih =>
      obtain ⟨hLine, hLines⟩ := List.forall_mem_cons.1 h
      simp only [feedLines, feedLine_of_passes hLine, ih hLines, Event.onLines_cons,
        List.foldl_append]

/-- The first line with an error on it stops the reader. -/
theorem feedLines_of_error {before rest : List Text} {line : Text} {message : WideText}
    (hBefore : ∀ b ∈ before, Passes depth b) (hLine : onLine depth line = .ok (some (.error message)))
    (r : StreamReader) :
    r.feedLines depth (before ++ line :: rest) =
      ((onLines depth before).foldl after r,
        .error (.reported (if message.isEmpty then Text.widen "stream error" else message))) := by
  rw [feedLines_append, feedLines_of_passes hBefore]
  simp only [andThen, feedLines, feedLine_of_some hLine]
  rfl

section
variable {chunks : List Text}

/-- Chunks whose complete lines all pass take a new reader to where the events on these lines lead,
with the incomplete line still to come. -/
theorem feedAll_of_passes (h : ∀ line ∈ completeLines chunks.flatten, Passes depth line) :
    fresh.feedAll depth chunks =
      (((onLines depth (completeLines chunks.flatten)).foldl after fresh).keeping
        (openLine chunks.flatten), .ok (onLines depth (completeLines chunks.flatten))) := by
  obtain ⟨kept, hAll, hKept⟩ := feedAll_fresh depth chunks
  rw [feedLines_of_passes h] at hAll
  rw [hAll, hKept _ (congrArg Prod.snd hAll)]

/-- Chunks of which one complete line has an error on it, and all lines before it pass, stop a new
reader at that line. -/
theorem feedAll_of_error {before rest : List Text} {line : Text} {message : WideText}
    (hLines : completeLines chunks.flatten = before ++ line :: rest)
    (hBefore : ∀ b ∈ before, Passes depth b) (hLine : onLine depth line = .ok (some (.error message))) :
    ∃ kept, fresh.feedAll depth chunks =
      (((onLines depth before).foldl after fresh).keeping kept,
        .error (.reported (if message.isEmpty then Text.widen "stream error" else message))) := by
  obtain ⟨kept, hAll, -⟩ := feedAll_fresh depth chunks
  rw [hLines, feedLines_of_error hBefore hLine] at hAll
  exact ⟨kept, hAll⟩

end

/-- What a reader shows of what it has read: the text so far, the last status, and whether the end
was seen. -/
def shown (r : StreamReader) : WideText × Option WideText × Bool := (r.text, r.status, r.done)

/-- It does not matter where a stream is cut. Two ways of cutting one text give the same events or
the same failure, and readers that show the same. When every complete line passes, the readers are
the same altogether, with the incomplete line still to come, and so is what they give at the end. At
the first line that does not pass, an error on it is reported, after all lines before it were read. -/
theorem feedAll_independent_of_cuts (depth : Nat) {first second : List Text}
    (hSame : first.flatten = second.flatten) :
    (fresh.feedAll depth first).2 = (fresh.feedAll depth second).2 ∧
    (fresh.feedAll depth first).1.shown = (fresh.feedAll depth second).1.shown ∧
    ((∀ line ∈ completeLines first.flatten, Passes depth line) →
      (fresh.feedAll depth first).2 = .ok (onLines depth (completeLines first.flatten)) ∧
      (fresh.feedAll depth first).1.pending = openLine first.flatten ∧
      (fresh.feedAll depth first).1 = (fresh.feedAll depth second).1 ∧
      (fresh.feedAll depth first).1.finish depth = (fresh.feedAll depth second).1.finish depth) ∧
    (∀ before line rest message, completeLines first.flatten = before ++ line :: rest →
      (∀ b ∈ before, Passes depth b) → onLine depth line = .ok (some (.error message)) →
      (fresh.feedAll depth first).2 =
        .error (.reported (if message.isEmpty then Text.widen "stream error" else message)) ∧
      (fresh.feedAll depth first).1.shown = ((onLines depth before).foldl after fresh).shown) := by
  refine ⟨?_, ?_, fun hPass => ?_, fun before line rest message hLines hBefore hLine => ?_⟩
  · obtain ⟨kept, hFirst, -⟩ := feedAll_fresh depth first
    obtain ⟨kept', hSecond, -⟩ := feedAll_fresh depth second
    rw [hFirst, hSecond, hSame]
  · obtain ⟨kept, hFirst, -⟩ := feedAll_fresh depth first
    obtain ⟨kept', hSecond, -⟩ := feedAll_fresh depth second
    rw [hFirst, hSecond, hSame]
    rfl
  · have hFirst := feedAll_of_passes hPass
    have hSecond := feedAll_of_passes (hSame ▸ hPass)
    have hReaders : fresh.feedAll depth first = fresh.feedAll depth second := by
      rw [hFirst, hSecond, hSame]
    rw [← hReaders]
    refine ⟨?_, ?_, rfl, rfl⟩
    · rw [hFirst]
    · rw [hFirst, pending_keeping]
  · obtain ⟨kept, hFirst⟩ := feedAll_of_error hLines hBefore hLine
    rw [hFirst]
    exact ⟨rfl, rfl⟩

/-- A text cut in two, with an empty chunk between. -/
def cutAt (n : Nat) (t : Text) : List Text := [t.take n, [], t.drop n]

theorem flatten_cutAt (n : Nat) (t : Text) : (cutAt n t).flatten = t := by
  simp [cutAt]

def statusLine : Text := "data: \x7b\"type\":\"status\",\"status\":\"s\"\x7d\r\n"

/-- A stream with noise in it and an incomplete line at the end. -/
def openStream : Text := statusLine ++ "noise\ndata: [DO"

def errorLine : Text := "data: \x7b\"type\":\"error\",\"error\":\x7b\"message\":\"m\"\x7d\x7d"

def failingStream : Text := statusLine ++ errorLine ++ "\nnoise\n"

/-- Two streams, each cut between a carriage return and its line feed and inside of the first word,
and read with room for two levels: all complete lines of the one pass, and the other reports an
error. -/
theorem feedAll_independent_of_cuts_of_status :
    ((cutAt 37 openStream).flatten = (cutAt 3 openStream).flatten ∧
      (∀ line ∈ completeLines (cutAt 37 openStream).flatten, Passes 2 line) ∧
      (fresh.feedAll 2 (cutAt 37 openStream)).2 =
        .ok (onLines 2 (completeLines (cutAt 37 openStream).flatten)) ∧
      (fresh.feedAll 2 (cutAt 37 openStream)).1 = (fresh.feedAll 2 (cutAt 3 openStream)).1) ∧
    ((cutAt 37 failingStream).flatten = (cutAt 3 failingStream).flatten ∧
      (fresh.feedAll 2 (cutAt 37 failingStream)).2 = .error (.reported (Text.widen "m")) ∧
      (fresh.feedAll 2 (cutAt 37 failingStream)).1.shown =
        (fresh.feedAll 2 (cutAt 3 failingStream)).1.shown) := by
  have hOpen : (cutAt 37 openStream).flatten = (cutAt 3 openStream).flatten := by
    rw [flatten_cutAt, flatten_cutAt]
  have hFailing : (cutAt 37 failingStream).flatten = (cutAt 3 failingStream).flatten := by
    rw [flatten_cutAt, flatten_cutAt]
  have hStatus : onLine 2 statusLine.dropLast = .ok (some (.status (Text.widen "s"))) :=
    Event.onLine_of_toOption (by decide +kernel)
  have hError : onLine 2 errorLine = .ok (some (.error (Text.widen "m"))) :=
    Event.onLine_of_toOption (by decide +kernel)
  have hPass : ∀ line ∈ completeLines (cutAt 37 openStream).flatten, Passes 2 line := by
    have hLines : completeLines (cutAt 37 openStream).flatten = [statusLine.dropLast, "noise"] := by
      decide +kernel
    rw [hLines, List.forall_mem_cons, List.forall_mem_singleton]
    exact ⟨⟨_, hStatus, nofun⟩, none, rfl, nofun⟩
  obtain ⟨-, -, hAll, -⟩ := feedAll_independent_of_cuts 2 hOpen
  obtain ⟨-, hShown, -, hStop⟩ := feedAll_independent_of_cuts 2 hFailing
  obtain ⟨hEvents, -, hReaders, -⟩ := hAll hPass
  refine ⟨⟨hOpen, hPass, hEvents, hReaders⟩, hFailing, ?_, hShown⟩
  refine (hStop [statusLine.dropLast] errorLine ["noise"] (Text.widen "m") ?_ ?_ hError).1
  · decide +kernel
  · exact List.forall_mem_singleton.2 ⟨_, hStatus, nofun⟩

end StreamReader

end Composer
