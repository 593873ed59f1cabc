import Composer.Proofs.Json.Agreement
import Composer.Proofs.Json.Refusals
import Composer.Proofs.Stream.Lines
import Composer.Proofs.Text.Joining

/-! What a line holds for a reader. Behind the beginning of a frame there is the word for the end of
the stream, or a JSON text; the text is an event when it says the same as the value of that event,
with no member less and no member more. A line that is no frame of an event holds nothing, unless
its JSON text cannot be converted at all. -/

namespace Composer

namespace HeardEvent

theorem singleString_eq_sound_iff {name : Text} {s : WideText} {found : Json} :
    singleString name found = .sound s ↔ found.Agrees (.obj [(name, .ofString s)]) := by
  have hKeys : ([(name, Json.ofString s)].map Prod.fst).Nodup := List.pairwise_singleton _ _
  rw [Json.agrees_obj_iff hKeys]
  simp only [singleString, Checked.andThen_eq_sound_iff, Field.members_eq_sound_iff,
    Checked.seq_eq_sound_iff, Checked.map_eq_sound_iff, Field.required_eq_sound_iff,
    Field.string_eq_sound_iff, Field.onlyNamed_eq_sound_iff]
  simp

/-- The word that tells of which kind an event is. -/
def tag : HeardEvent → Text
  | .delta _ => "content_block_delta"
  | .status _ => "status"
  | .clear => "clear"
  | .error _ => "error"
  | .done => "done"

/-- The one member in which an event holds a string, if it holds any. -/
def content : HeardEvent → List (Text × Json)
  | .delta s => [("delta", .obj [("text", .ofString s)])]
  | .status s => [("status", .ofString s)]
  | .clear => []
  | .error message => [("error", .obj [("message", .ofString message)])]
  | .done => []

theorem toJson_eq (e : HeardEvent) : e.toJson = .obj (("type", .str e.tag) :: e.content) := by
  cases e <;> rfl

theorem nodup_keys (e : HeardEvent) :
    ((("type", .str e.tag) :: e.content : List (Text × Json)).map Prod.fst).Nodup := by
  have hPair {name : Text} (hName : ("type" : Text) ≠ name) : (["type", name] : List Text).Nodup :=
    List.nodup_cons.2 ⟨fun h => hName (List.mem_singleton.1 h), List.pairwise_singleton _ _⟩
  cases e with
  | delta t => exact hPair (show ("type" : Text) ≠ "delta" by decide)
  | status s => exact hPair (show ("type" : Text) ≠ "status" by decide)
  | clear => exact List.pairwise_singleton _ _
  | error message => exact hPair (show ("type" : Text) ≠ "error" by decide)
  | done => exact List.pairwise_singleton _ _

theorem tag_mem_tags (e : HeardEvent) : e.tag ∈ tags := by
  cases e with
  | delta t => exact (by decide : ("content_block_delta" : Text) ∈ tags)
  | status s => exact (by decide : ("status" : Text) ∈ tags)
  | clear => decide
  | error message => exact (by decide : ("error" : Text) ∈ tags)
  | done => decide

/-- The members of an object hold what an event holds, besides its tag. -/
def Holds (e : HeardEvent) (ms : List (Text × Json)) : Prop :=
  (∀ n ∈ e.content, ∃ value, Json.member? n.1 ms = some value ∧ value.Agrees n.2) ∧
    ∀ key, key ∉ ("type" : Text) :: e.content.map Prod.fst → Json.member? key ms = none

theorem agrees_toJson_iff {found : Json} {e : HeardEvent} :
    found.Agrees e.toJson ↔ ∃ ms, found = .obj ms ∧
      Json.member? "type" ms = some (.str e.tag) ∧ e.Holds ms := by
  rw [toJson_eq, Json.agrees_obj_iff e.nodup_keys]
  simp [Holds, and_assoc]

section
variable {ms : List (Text × Json)} {e : HeardEvent}

theorem tag_of_ofTagged_eq_sound {word : Text} (hWord : word ∈ tags)
    (h : ofTagged word ms = .sound e) : word = e.tag := by
  unfold ofTagged at h
  by_cases hDelta : word = ("content_block_delta" : Text)
  · rw [if_pos hDelta, Checked.seq_eq_sound_iff] at h
    obtain ⟨g, u, hText, -, rfl⟩ := h
    obtain ⟨t, -, rfl⟩ := Checked.map_eq_sound_iff.1 hText
    exact hDelta
  rw [if_neg hDelta] at h
  by_cases hStatus : word = ("status" : Text)
  · rw [if_pos hStatus, Checked.seq_eq_sound_iff] at h
    obtain ⟨g, u, hText, -, rfl⟩ := h
    obtain ⟨s, -, rfl⟩ := Checked.map_eq_sound_iff.1 hText
    exact hStatus
  rw [if_neg hStatus] at h
  by_cases hClear : word = ("clear" : Text)
  · rw [if_pos hClear, Checked.map_eq_sound_iff] at h
    obtain ⟨u, -, rfl⟩ := h
    exact hClear
  rw [if_neg hClear] at h
  by_cases hError : word = ("error" : Text)
  · rw [if_pos hError, Checked.seq_eq_sound_iff] at h
    obtain ⟨g, u, hText, -, rfl⟩ := h
    obtain ⟨message, -, rfl⟩ := Checked.map_eq_sound_iff.1 hText
    exact hError
  rw [if_neg hError, Checked.map_eq_sound_iff] at h
  obtain ⟨u, -, rfl⟩ := h
  change word = ("done" : Text)
  simpa only [tags, List.mem_cons, List.not_mem_nil, or_false, hDelta, hStatus, hClear, hError,
    false_or] using hWord

theorem ofTagged_tag_eq_sound_iff : ofTagged e.tag ms = .sound e ↔ e.Holds ms := by
  cases e with
  | delta t =>
      change ofTagged "content_block_delta" ms = .sound (.delta t) ↔ _
      rw [ofTagged, if_pos rfl]
      simp [Holds, content, singleString_eq_sound_iff]
  | status s =>
      change ofTagged "status" ms = .sound (.status s) ↔ _
      rw [ofTagged, if_neg (by decide), if_pos rfl]
      simp [Holds, content]
  | clear =>
      change ofTagged "clear" ms = .sound .clear ↔ _
      rw [ofTagged, if_neg (by decide), if_neg (by decide), if_pos rfl]
      simp [Holds, content]
  | error message =>
      change ofTagged "error" ms = .sound (.error message) ↔ _
      rw [ofTagged, if_neg (by decide), if_neg (by decide), if_neg (by decide), if_pos rfl]
      simp [Holds, content, singleString_eq_sound_iff]
  | done =>
      change ofTagged "done" ms = .sound .done ↔ _
      rw [ofTagged, if_neg (by decide), if_neg (by decide), if_neg (by decide),
        if_neg (by decide)]
      simp [Holds, content]

theorem ofTagged_eq_sound_iff {word : Text} (hWord : word ∈ tags) :
    ofTagged word ms = .sound e ↔ word = e.tag ∧ e.Holds ms := by
  constructor
  · intro h
    obtain rfl := tag_of_ofTagged_eq_sound hWord h
    exact ⟨rfl, ofTagged_tag_eq_sound_iff.1 h⟩
  · rintro ⟨rfl, hHolds⟩
    exact ofTagged_tag_eq_sound_iff.2 hHolds

/-- A value is an event when it says the same as the event's own value. -/
theorem ofJson_eq_sound_iff {found : Json} : ofJson found = .sound e ↔ found.Agrees e.toJson := by
  rw [ofJson, Checked.andThen_eq_sound_iff, agrees_toJson_iff]
  refine exists_congr fun ms => and_congr Field.members_eq_sound_iff ?_
  cases hType : Json.member? "type" ms with
  | none => simp
  | some value =>
      cases value with
      | str word =>
          by_cases hWord : word ∈ tags
          · simp [hWord, ofTagged_eq_sound_iff]
          · have hOther : word ≠ e.tag := fun hSame => hWord (hSame ▸ e.tag_mem_tags)
            simp [hWord, hOther]
      | _ => simp

end

end HeardEvent

namespace Event

/-! ### Lines -/

/-- The line, without the carriage returns at its end, is a frame with this between its beginning and
white space. -/
def Frames (line payload : Text) : Prop :=
  ∃ rest, Text.trimEndWhere (· == '\r') line = frameStart ++ rest ∧ rest.strip = payload

/-- The line is a frame of the event: it has the word for the end of the stream, or else a JSON text
that says the same as the event. -/
def Carries (depth : Nat) (line : Text) (e : HeardEvent) : Prop :=
  ∃ payload, Frames line payload ∧
    if payload = doneWord then e = .done
    else ∃ found, Json.read (Json.message depth) payload = .ok found ∧ found.Agrees e.toJson

/-- The line is a frame whose JSON text cannot be converted, although it may be well formed. -/
inductive Overtaxes (depth : Nat) (line : Text) : StreamFailure → Prop where
  | oversizedInteger {payload : Text} {digits : Nat} (hFrame : Frames line payload)
      (hOther : payload ≠ doneWord)
      (hRead : Json.read (Json.message depth) payload = .error (.oversizedInteger digits)) :
      Overtaxes depth line .oversizedInteger
  | tooDeep {payload : Text} {inArray : Bool} (hFrame : Frames line payload)
      (hOther : payload ≠ doneWord)
      (hRead : Json.read (Json.message depth) payload = .error (.tooDeep inArray)) :
      Overtaxes depth line .tooDeep

/-- The line holds no event, and can be passed over. -/
def Silent (depth : Nat) (line : Text) : Prop :=
  (∀ e, ¬ Carries depth line e) ∧ ∀ failure, ¬ Overtaxes depth line failure

section
variable {depth : Nat} {line payload : Text}

theorem frames_iff : Frames line payload ↔
    ∃ rest, Text.after? frameStart (Text.trimEndWhere (· == '\r') line) = some rest ∧
      rest.strip = payload := by
  refine exists_congr fun rest => and_congr_left fun _ => ⟨fun h => ?_, fun h => ?_⟩
  · rw [h, Text.after?_append]
  · exact Text.eq_append_of_after?_eq_some h

/-- What is heard on a frame depends on its payload. -/
theorem onLine_of_frames (h : Frames line payload) :
    onLine depth line =
      if payload = doneWord then .ok (some .done)
      else
        match Json.read (Json.message depth) payload with
        | .error (.malformed _ _) => .ok none
        | .error (.oversizedInteger _) => .error .oversizedInteger
        | .error (.tooDeep _) => .error .tooDeep
        | .ok found =>
          match HeardEvent.ofJson found with
          | .sound e => .ok (some e)
          | .faulty _ => .ok none := by
  obtain ⟨rest, hRest, rfl⟩ := frames_iff.1 h
  unfold onLine ofLine
  generalize Text.after? frameStart (Text.trimEndWhere (· == '\r') line) = found at hRest ⊢
  subst hRest
  rfl

theorem onLine_of_not_frames (h : ∀ payload, ¬ Frames line payload) :
    onLine depth line = .ok none := by
  have hNone : Text.after? frameStart (Text.trimEndWhere (· == '\r') line) = none := by
    rw [Option.eq_none_iff_forall_ne_some]
    exact fun rest hRest => h _ (frames_iff.2 ⟨rest, hRest, rfl⟩)
  rw [onLine, ofLine, hNone]

/-- A reader hears an event on a line that is a frame of it. -/
theorem onLine_eq_some_iff {e : HeardEvent} :
    onLine depth line = .ok (some e) ↔ Carries depth line e := by
  constructor
  · intro h
    by_cases hFrame : ∃ payload, Frames line payload
    · obtain ⟨payload, hFrame⟩ := hFrame
      refine ⟨payload, hFrame, ?_⟩
      rw [onLine_of_frames hFrame] at h
      split at h
      · next hDone =>
          rw [if_pos hDone]
          exact (Option.some.inj (Except.ok.inj h)).symm
      · next hOther =>
          rw [if_neg hOther]
          split at h
          · exact absurd h nofun
          · exact absurd h nofun
          · exact absurd h nofun
          · next found hRead =>
              split at h
              · next e' hSound =>
                  obtain rfl := Option.some.inj (Except.ok.inj h)
                  exact ⟨found, hRead, HeardEvent.ofJson_eq_sound_iff.1 hSound⟩
              · exact absurd h nofun
    · rw [onLine_of_not_frames (not_exists.1 hFrame)] at h
      exact absurd h nofun
  · rintro ⟨payload, hFrame, hHeld⟩
    rw [onLine_of_frames hFrame]
    by_cases hDone : payload = doneWord
    · rw [if_pos hDone] at hHeld ⊢
      rw [hHeld]
    · rw [if_neg hDone] at hHeld ⊢
      obtain ⟨found, hRead, hAgrees⟩ := hHeld
      simp only [hRead, HeardEvent.ofJson_eq_sound_iff.2 hAgrees]

/-- A line cannot be decoded when it is a frame whose JSON text cannot be converted. -/
theorem onLine_eq_error_iff {failure : StreamFailure} :
    onLine depth line = .error failure ↔ Overtaxes depth line failure := by
  constructor
  · intro h
    by_cases hFrame : ∃ payload, Frames line payload
    · obtain ⟨payload, hFrame⟩ := hFrame
      rw [onLine_of_frames hFrame] at h
      split at h
      · exact absurd h nofun
      · next hOther =>
        split at h
        · exact absurd h nofun
        · next hRead =>
            obtain rfl := Except.error.inj h
            exact .oversizedInteger hFrame hOther hRead
        · next hRead =>
            obtain rfl := Except.error.inj h
            exact .tooDeep hFrame hOther hRead
        · split at h
          · exact absurd h nofun
          · exact absurd h nofun
    · rw [onLine_of_not_frames (not_exists.1 hFrame)] at h
      exact absurd h nofun
  · intro h
    cases h with
    | oversizedInteger hFrame hOther hRead =>
        rw [onLine_of_frames hFrame, if_neg hOther, hRead]
    | tooDeep hFrame hOther hRead =>
        rw [onLine_of_frames hFrame, if_neg hOther, hRead]

theorem onLine_eq_none_iff : onLine depth line = .ok none ↔ Silent depth line := by
  constructor
  · intro h
    refine ⟨fun e hCarries => ?_, fun failure hOvertaxes => ?_⟩
    · exact absurd (h.symm.trans (onLine_eq_some_iff.2 hCarries)) nofun
    · exact absurd (h.symm.trans (onLine_eq_error_iff.2 hOvertaxes)) nofun
  · rintro ⟨hNoEvent, hRead⟩
    cases hLine : onLine depth line with
    | error failure => exact absurd (onLine_eq_error_iff.1 hLine) (hRead failure)
    | ok found =>
        cases found with
        | none => rfl
        | some e => exact absurd (onLine_eq_some_iff.1 hLine) (hNoEvent e)

/-! ### What cannot be converted -/

theorem Frames.infix (h : Frames line payload) : payload <:+: line := by
  obtain ⟨rest, hRest, rfl⟩ := h
  obtain ⟨ending, hEnding, -⟩ := Text.exists_eq_trimEndWhere_append (p := (· == '\r')) line
  have hBehind : rest <:+: Text.trimEndWhere (· == '\r') line :=
    (hRest ▸ List.suffix_append frameStart rest).isInfix
  exact (Text.strip_infix rest).trans (hBehind.trans ⟨[], ending, hEnding.symm⟩)

/-- A line that cannot be converted shows it: there is a long row of digits on it, or it opens very
many brackets. -/
theorem shows_of_overtaxes {failure : StreamFailure} (h : Overtaxes depth line failure) :
    failure = .oversizedInteger ∧ (∃ digits : Text, digits.all isAsciiDigit ∧
      Reading.digitLimit < digits.length ∧ digits <:+: line) ∨
    failure = .tooDeep ∧ depth < Json.openings line := by
  cases h with
  | oversizedInteger hFrame hOther hRead =>
      obtain ⟨digits, hDigits, rfl, hMany, hFound⟩ := Json.digits_of_read_eq_oversizedInteger hRead
      exact .inl ⟨rfl, digits, hDigits, hMany, hFound.trans hFrame.infix⟩
  | tooDeep hFrame hOther hRead =>
      have hMany := Json.depth_lt_openings_of_read_eq_tooDeep hRead
      exact .inr ⟨rfl, hMany.trans_le hFrame.infix.sublist.countP_le⟩

/-- A text that white space neither begins nor ends is the payload of its frame. -/
theorem frames_append (hNonempty : payload ≠ []) (hFirst : ∀ c ∈ payload.head?, isBlank c = false)
    (hLast : ∀ c ∈ payload.getLast?, isBlank c = false) : Frames (frameStart ++ payload) payload := by
  have hTrim : Text.trimEndWhere (· == '\r') (frameStart ++ payload) = frameStart ++ payload := by
    refine Text.trimEndWhere_eq_self fun c hc => beq_eq_false_iff_ne.2 ?_
    rw [List.getLast?_append_of_ne_nil _ hNonempty] at hc
    rintro rfl
    exact absurd (hLast _ hc) (by decide)
  exact ⟨payload, hTrim, Text.trimWhere_eq_self hFirst hLast⟩

end

/-- A long row of digits alone cannot be converted. -/
theorem overtaxes_of_digits {digits : Text} (hDigits : digits.all isAsciiDigit)
    (hHead : digits.head? ≠ some '0') (hMany : Reading.digitLimit < digits.length) (depth : Nat) :
    Overtaxes depth (frameStart ++ digits) .oversizedInteger := by
  have hBlank : ∀ c ∈ digits, isBlank c = false := fun c hc =>
    isBlank_eq_false_of_isAsciiDigit (List.all_eq_true.1 hDigits c hc)
  have hNonempty : digits ≠ [] := List.ne_nil_of_length_pos (by omega)
  have hOther : digits ≠ doneWord := by
    rintro rfl
    exact absurd hDigits (by decide)
  refine .oversizedInteger (frames_append hNonempty ?_ ?_) hOther
    (Json.read_of_digits hDigits hHead hMany)
  · exact fun c hc => hBlank c (List.mem_of_head? hc)
  · exact fun c hc => hBlank c (List.mem_of_getLast? hc)

/-- A long row of opening brackets alone cannot be converted either. -/
theorem overtaxes_of_brackets {depth n : Nat} (hMany : depth < n) :
    Overtaxes depth (frameStart ++ List.replicate n '[') .tooDeep := by
  have hBlank : ∀ c ∈ List.replicate n '[', isBlank c = false := fun c hc =>
    List.eq_of_mem_replicate hc ▸ rfl
  have hNonempty : List.replicate n '[' ≠ [] := by
    rw [Ne, List.replicate_eq_nil_iff]
    omega
  have hOther : List.replicate n '[' ≠ doneWord := by
    intro hDone
    have hLetter : 'D' ∈ List.replicate n '[' := hDone ▸ (by decide : 'D' ∈ doneWord)
    exact absurd (List.eq_of_mem_replicate hLetter) (by decide)
  refine .tooDeep (frames_append hNonempty ?_ ?_) hOther (Json.read_replicate_bracket hMany)
  · exact fun c hc => hBlank c (List.mem_of_head? hc)
  · exact fun c hc => hBlank c (List.mem_of_getLast? hc)

end Event

end Composer
