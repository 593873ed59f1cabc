import Composer.Proofs.Stream.Decoding

/-! Noise in a stream. A reader fails at a line that has an error on it, and at one whose JSON text
cannot be converted; there is no other way to stop it. Every other line either has an event on it,
and then what the reader shows changes by that event and in nothing else, or leaves the reader as it
was. So lines that hold no event can be put between the lines of a stream, in any number. -/

namespace Composer

namespace StreamReader

open Event (onLine Carries Overtaxes Silent)

variable {depth : Nat}

/-- What a reader that shows this shows after an event. -/
def shownAfter (shown : WideText × Option WideText × Bool) :
    HeardEvent → WideText × Option WideText × Bool
  | .delta s => (shown.1 ++ s, shown.2)
  | .status s => (shown.1, some s, shown.2.2)
  | .clear => ([], shown.2)
  | .error _ => shown
  | .done => (shown.1, shown.2.1, true)

/-- The failure that reports an error. -/
def failureOf (message : WideText) : StreamFailure :=
  .reported (if message.isEmpty then Text.widen "stream error" else message)

theorem shown_after (r : StreamReader) (e : HeardEvent) :
    (r.after e).shown = shownAfter r.shown e := by
  cases e with
  | delta t => simp [after, apply, shown, text, shownAfter, Except.toOption]
  | status s => rfl
  | clear => rfl
  | error message => rfl
  | done => rfl

theorem feedLine_of_onLine_error {line : Text} {failure : StreamFailure}
    (h : onLine depth line = .error failure) (r : StreamReader) :
    r.feedLine depth line = (r, .error failure) := by
  unfold onLine at h
  rw [feedLine, h]

/-- What a line makes of a reader, and gives. -/
structure Hears (r : StreamReader) (depth : Nat) (line : Text) (r' : StreamReader)
    (result : Except StreamFailure (Option HeardEvent)) : Prop where
  /-- It fails where there is an error on the line, and where the line cannot be converted. -/
  failure_iff : ∀ failure, result = .error failure ↔
    (∃ message, Carries depth line (.error message) ∧ failure = failureOf message) ∨
      Overtaxes depth line failure
  /-- It gives the event on the line. -/
  event_iff : ∀ e, result = .ok (some e) ↔ Carries depth line e ∧ ∀ message, e ≠ .error message
  /-- It gives nothing for a line that holds none. -/
  nothing_iff : result = .ok none ↔ Silent depth line
  /-- An event has its own effect on what is shown, and no other. -/
  effect : ∀ e, result = .ok (some e) → r'.shown = shownAfter r.shown e ∧ r'.pending = r.pending
  /-- Without an event the reader stays as it was. -/
  unchanged : (∀ e, result ≠ .ok (some e)) → r' = r

section
variable {r : StreamReader} {line : Text}

theorem hears_of_onLine_error {failure : StreamFailure} (h : onLine depth line = .error failure) :
    Hears r depth line r (.error failure) where
  failure_iff := by simp [← Event.onLine_eq_some_iff, ← Event.onLine_eq_error_iff, h]
  event_iff := by simp [← Event.onLine_eq_some_iff, h]
  nothing_iff := by simp [← Event.onLine_eq_none_iff, h]
  effect := nofun
  unchanged := fun _ => rfl

theorem hears_of_onLine_none (h : onLine depth line = .ok none) :
    Hears r depth line r (.ok none) where
  failure_iff := by simp [← Event.onLine_eq_some_iff, ← Event.onLine_eq_error_iff, h]
  event_iff := by simp [← Event.onLine_eq_some_iff, h]
  nothing_iff := by simp [← Event.onLine_eq_none_iff, h]
  effect := nofun
  unchanged := fun _ => rfl

theorem hears_of_onLine_error_event {message : WideText}
    (h : onLine depth line = .ok (some (.error message))) :
    Hears r depth line r (.error (failureOf message)) where
  failure_iff := by simp [← Event.onLine_eq_some_iff, ← Event.onLine_eq_error_iff, h, eq_comm]
  event_iff := by simp [← Event.onLine_eq_some_iff, h]
  nothing_iff := by simp [← Event.onLine_eq_none_iff, h]
  effect := nofun
  unchanged := fun _ => rfl

theorem hears_of_onLine_event {e : HeardEvent} (h : onLine depth line = .ok (some e))
    (hOther : ∀ message, e ≠ .error message) : Hears r depth line (r.after e) (.ok (some e)) where
  failure_iff := by simp [← Event.onLine_eq_some_iff, ← Event.onLine_eq_error_iff, h, hOther]
  event_iff := by
    intro f
    rw [← Event.onLine_eq_some_iff, h]
    refine ⟨fun hSame => ⟨hSame, ?_⟩, And.left⟩
    exact Option.some.inj (Except.ok.inj hSame) ▸ hOther
  nothing_iff := by simp [← Event.onLine_eq_none_iff, h]
  effect := by
    intro f hSame
    obtain rfl := Option.some.inj (Except.ok.inj hSame)
    exact ⟨r.shown_after e, r.after_pending e⟩
  unchanged := fun hNone => absurd rfl (hNone e)

theorem hears_feedLine (r : StreamReader) (depth : Nat) (line : Text) :
    Hears r depth line (r.feedLine depth line).1 (r.feedLine depth line).2 := by
  cases hLine : onLine depth line with
  | error failure =>
      rw [feedLine_of_onLine_error hLine]
      exact hears_of_onLine_error hLine
  | ok found =>
      cases found with
      | none =>
          rw [feedLine_of_none hLine]
          exact hears_of_onLine_none hLine
      | some e =>
          rw [feedLine_of_some hLine]
          by_cases hError : ∃ message, e = .error message
          · obtain ⟨message, rfl⟩ := hError
            exact hears_of_onLine_error_event hLine
          · have hOther := not_exists.1 hError
            rw [apply_eq_ok_after r hOther]
            exact hears_of_onLine_event hLine hOther

end

/-! ### Lines between lines -/

/-- The second lines are the first with lines put between them that hold no event. -/
inductive Padded (depth : Nat) : List Text → List Text → Prop where
  | nil : Padded depth [] []
  | line (line : Text) {lines padded : List Text} (hRest : Padded depth lines padded) :
      Padded depth (line :: lines) (line :: padded)
  | noise {noise : Text} (hSilent : Silent depth noise) {lines padded : List Text}
      (hRest : Padded depth lines padded) : Padded depth lines (noise :: padded)

theorem Padded.append {noise lines padded : List Text} (hNoise : ∀ line ∈ noise, Silent depth line)
    (h : Padded depth lines padded) : Padded depth lines (noise ++ padded) := by
  induction noise with
  | nil => exact h
  | cons line noise ih =>
      obtain ⟨hSilent, hNoise⟩ := List.forall_mem_cons.1 hNoise
      exact .noise hSilent (ih hNoise)

theorem feedLines_of_padded {lines padded : List Text} (h : Padded depth lines padded)
    (r : StreamReader) : r.feedLines depth padded = r.feedLines depth lines := by
  induction h generalizing r with
  | nil => rfl
  | line line hRest ih => simp only [feedLines, ih]
  | noise hSilent hRest ih =>
      rw [feedLines, feedLine_of_none (Event.onLine_eq_none_iff.2 hSilent)]
      simp only [ih]
      -- A line without an event adds nothing to what the rest gives, whatever that is.
      generalize r.feedLines depth _ = outcome
      obtain ⟨r', result⟩ := outcome
      cases result with
      | error failure => rfl
      | ok events => rfl

/-- Chunks of which the lines are those of other chunks, with noise between them, give the same. -/
theorem feedAll_of_padded {chunks padded : List Text}
    (h : Padded depth (completeLines chunks.flatten) (completeLines padded.flatten)) :
    (fresh.feedAll depth padded).2 = (fresh.feedAll depth chunks).2 ∧
      (fresh.feedAll depth padded).1.shown = (fresh.feedAll depth chunks).1.shown := by
  obtain ⟨kept, hChunks, -⟩ := feedAll_fresh depth chunks
  obtain ⟨kept', hPadded, -⟩ := feedAll_fresh depth padded
  rw [hChunks, hPadded, feedLines_of_padded h]
  exact ⟨rfl, rfl⟩

/-- Only errors stop a reader, and lines that cannot be converted. Of every line, it fails exactly at
one that has an error event on it, whose message it reports, or a JSON text that cannot be converted;
it gives exactly the event on the line, with its own effect and no other, or nothing, and then it
stays as it was. Whether the strings of an event are texts does not matter. A line that cannot be
converted has a row of more than 4300 digits, or opens more brackets than there is room for, however
much that is, and such a row alone is enough. Lines that hold no event can be put
anywhere between the lines of a stream: the reader is left in the same state and has heard the
same. -/
theorem feedLine_hears_events_only (r : StreamReader) (depth : Nat) (line : Text) :
    Hears r depth line (r.feedLine depth line).1 (r.feedLine depth line).2 ∧
    (∀ failure, Overtaxes depth line failure →
      failure = .oversizedInteger ∧ (∃ digits : Text, digits.all isAsciiDigit ∧
        4300 < digits.length ∧ digits <:+: line) ∨
      failure = .tooDeep ∧ depth < Json.openings line) ∧
    (∀ digits : Text, digits.all isAsciiDigit → digits.head? ≠ some '0' → 4300 < digits.length →
      Overtaxes depth ("data: " ++ digits) .oversizedInteger) ∧
    (∀ n, depth < n → Overtaxes depth ("data: " ++ List.replicate n '[') .tooDeep) ∧
    (∀ lines padded : List Text, Padded depth lines padded →
      r.feedLines depth padded = r.feedLines depth lines) ∧
    (∀ chunks padded : List Text,
      Padded depth (completeLines chunks.flatten) (completeLines padded.flatten) →
      (fresh.feedAll depth padded).2 = (fresh.feedAll depth chunks).2 ∧
      (fresh.feedAll depth padded).1.shown = (fresh.feedAll depth chunks).1.shown) := by
  refine ⟨hears_feedLine r depth line, fun _ => Event.shows_of_overtaxes, ?_, ?_, ?_, ?_⟩
  · exact fun _ hDigits hHead hMany => Event.overtaxes_of_digits hDigits hHead hMany depth
  · exact fun _ => Event.overtaxes_of_brackets
  · exact fun _ _ hPadded => feedLines_of_padded hPadded r
  · exact fun _ _ => feedAll_of_padded

/-- A keep-alive, a payload that is no JSON text, an event of an unknown kind, and one with a member
that it does not have. -/
def noiseLines : List Text :=
  [": keep-alive", "data: \x7bbroken", "data: \x7b\"type\":\"unknown\"\x7d",
    "data: \x7b\"type\":\"clear\",\"x\":1\x7d"]

theorem feedLine_hears_events_only_of_noise :
    Padded 2 [statusLine.dropLast] (noiseLines ++ statusLine.dropLast :: noiseLines) ∧
    fresh.feedLines 2 (noiseLines ++ statusLine.dropLast :: noiseLines) =
      fresh.feedLines 2 [statusLine.dropLast] ∧
    (fresh.feedLine 2 statusLine.dropLast).1.shown = ([], some (Text.widen "s"), false) := by
  have hSilent : ∀ noise ∈ noiseLines, Silent 2 noise := by
    intro noise hNoise
    rw [← Event.onLine_eq_none_iff]
    have hDecoded : ∀ noise ∈ noiseLines, (onLine 2 noise).toOption = some none := by
      decide +kernel
    exact Event.onLine_of_toOption (hDecoded noise hNoise)
  have hPadded :
      Padded 2 [statusLine.dropLast] (noiseLines ++ statusLine.dropLast :: noiseLines) := by
    refine .append hSilent (.line _ ?_)
    rw [← List.append_nil noiseLines]
    exact .append hSilent .nil
  obtain ⟨hHears, -, -, -, hLines, -⟩ := feedLine_hears_events_only fresh 2 statusLine.dropLast
  refine ⟨hPadded, hLines _ _ hPadded, ?_⟩
  have hStatus : onLine 2 statusLine.dropLast = .ok (some (.status (Text.widen "s"))) :=
    Event.onLine_of_toOption (by decide +kernel)
  refine (hHears.effect (.status (Text.widen "s")) ?_).1
  rw [feedLine_of_some hStatus]
  rfl

/-- An error whose message is an unpaired surrogate is heard like any other. -/
example :
    (onLine 2 "data: \x7b\"type\":\"error\",\"error\":\x7b\"message\":\"\\ud83d\"\x7d\x7d").toOption =
      some (some (.error [.surrogate 0x3D])) := by
  decide +kernel

/-- A frame with 4301 sevens. -/
def sevensLine : Text := "data: " ++ List.replicate 4301 '7'

/-- A line without an event on it that stops a reader. -/
theorem feedLine_stopped_by_sevens :
    fresh.feedLine 2 sevensLine = (fresh, .error .oversizedInteger) ∧
      ∀ e, ¬ Carries 2 sevensLine e := by
  have hOvertaxes : Overtaxes 2 sevensLine .oversizedInteger := by
    refine Event.overtaxes_of_digits ?_ ?_ ?_ 2
    · rw [List.all_replicate]
      rfl
    · rw [List.head?_replicate]
      decide
    · rw [List.length_replicate]
      decide
  have hLine := Event.onLine_eq_error_iff.2 hOvertaxes
  refine ⟨feedLine_of_onLine_error hLine fresh, fun e hCarries => ?_⟩
  exact absurd (hLine.symm.trans (Event.onLine_eq_some_iff.2 hCarries)) nofun

end StreamReader

end Composer
