import Composer.Policy
import Composer.Proofs.Field.Refusals
import Mathlib.Data.List.Nodup

/-!
The limits of a policy, one by one. A limit has two names and a way to read what is given for it; an
object holds a policy when it holds each of its limits and nothing else, and an object that holds
none blames members that are refused. What a limit was read as is read as itself.
-/

namespace Composer.Policy

inductive Limit where
  | voices
  | lines
  | randomness
  | effects
  | tempo
  | foreignSamples
  | delayFeedback
  | roomSize
  deriving DecidableEq, Repr

namespace Limit

def all : List Limit :=
  [voices, lines, randomness, effects, tempo, foreignSamples, delayFeedback, roomSize]

def internalName : Limit → Text
  | voices => "max_voices"
  | lines => "max_lines"
  | randomness => "max_random_usage"
  | effects => "max_effects_per_voice"
  | tempo => "require_setcpm"
  | foreignSamples => "reject_localhost"
  | delayFeedback => "max_delay_feedback"
  | roomSize => "max_room_size"

def externalName : Limit → Text
  | voices => "maxVoices"
  | lines => "maxLines"
  | randomness => "maxRandomUsage"
  | effects => "maxEffectsPerVoice"
  | tempo => "requireSetcpm"
  | foreignSamples => "rejectLocalhost"
  | delayFeedback => "maxDelayFeedback"
  | roomSize => "maxRoomSize"

/-- What a value that is given for a limit is read as. -/
def read (l : Limit) (value : Json) : Checked Json :=
  match l with
  | voices | lines | randomness | effects =>
    (fun n : Nat => Json.int n) <$> Field.integerFrom 0 value
  | tempo | foreignSamples => Json.bool <$> Field.flag value
  | delayFeedback | roomSize => Json.float <$> Field.ceiling value

theorem mem_all (l : Limit) : l ∈ all := by
  cases l <;> decide

theorem forall_iff {P : Limit → Prop} : (∀ l, P l) ↔ P voices ∧ P lines ∧ P randomness ∧
    P effects ∧ P tempo ∧ P foreignSamples ∧ P delayFeedback ∧ P roomSize := by
  constructor
  · intro h
    exact ⟨h _, h _, h _, h _, h _, h _, h _, h _⟩
  · rintro ⟨hVoices, hLines, hRandomness, hEffects, hTempo, hSamples, hFeedback, hRoom⟩ l
    cases l <;> assumption

theorem names_eq : names = all.map fun l => (l.internalName, l.externalName) := rfl

theorem externalName_injective : Function.Injective externalName := by
  have hNodup : (all.map externalName).Nodup := by decide
  intro l m hSame
  exact List.inj_on_of_nodup_map hNodup l.mem_all m.mem_all hSame

theorem mem_externalNames_iff {key : Text} :
    key ∈ names.map Prod.snd ↔ ∃ l : Limit, key = l.externalName := by
  rw [names_eq, List.map_map, List.mem_map]
  constructor
  · rintro ⟨l, -, rfl⟩
    exact ⟨l, rfl⟩
  · rintro ⟨l, rfl⟩
    exact ⟨l, l.mem_all, rfl⟩

end Limit

/-- The value of a limit. -/
def limit (p : Policy) : Limit → Json
  | .voices => .int p.maxVoices
  | .lines => .int p.maxLines
  | .randomness => .int p.maxRandomUsage
  | .effects => .int p.maxEffectsPerVoice
  | .tempo => .bool p.requireTempo
  | .foreignSamples => .bool p.rejectForeignSamples
  | .delayFeedback => .float p.maxDelayFeedback
  | .roomSize => .float p.maxRoomSize

/-- What every policy satisfies that was read: its ceilings are numbers and not negative. -/
structure WellFormed (p : Policy) : Prop where
  delayFeedback : Binary64.zero.le p.maxDelayFeedback
  roomSize : Binary64.zero.le p.maxRoomSize

theorem wellFormed_standard : standard.WellFormed := ⟨by decide +kernel, by decide +kernel⟩

theorem toMembers_eq (p : Policy) :
    p.toMembers = Limit.all.map fun l => (l.externalName, p.limit l) := rfl

theorem member?_toMembers (p : Policy) (l : Limit) :
    Json.member? l.externalName p.toMembers = some (p.limit l) := by
  cases l <;> rfl

/-- A policy is known by its limits. -/
theorem eq_of_limit_eq {p q : Policy} (h : ∀ l, p.limit l = q.limit l) : p = q := by
  obtain ⟨voices, lines, randomness, effects, tempo, samples, feedback, room⟩ := p
  have hAll := Limit.forall_iff.1 h
  simp only [limit, Json.int.injEq, Json.bool.injEq, Json.float.injEq, Int.natCast_inj] at hAll
  obtain ⟨rfl, rfl, rfl, rfl, rfl, rfl, rfl, rfl⟩ := hAll
  rfl

theorem integerFrom_zero (n : Nat) : Field.integerFrom 0 (.int n) = .sound n := by
  simp [Field.integerFrom, Field.integer, Checked.andThen]

theorem ceiling_eq_sound_iff {value : Json} {x : Binary64} :
    Field.ceiling value = .sound x ↔
      Field.number (fun n => (Binary64.ofInt n).isFinite) value = .sound x ∧
        Binary64.zero.le x := by
  rw [Field.ceiling, Checked.andThen_eq_sound_iff]
  constructor
  · rintro ⟨y, hNumber, hLeast⟩
    split at hLeast
    · next hLe =>
        obtain rfl := Checked.sound.inj hLeast
        exact ⟨hNumber, hLe⟩
    · exact absurd hLeast Checked.refuse_ne_sound
  · rintro ⟨hNumber, hLe⟩
    exact ⟨x, hNumber, if_pos hLe⟩

/-- What was read for a limit is read as itself. -/
theorem Limit.read_of_read {l : Limit} {value taken : Json} (h : l.read value = .sound taken) :
    l.read taken = .sound taken := by
  cases l with
  | voices | lines | randomness | effects =>
      obtain ⟨n, -, rfl⟩ := Checked.map_eq_sound_iff.1 h
      exact Checked.map_eq_sound_iff.2 ⟨n, integerFrom_zero n, rfl⟩
  | tempo | foreignSamples =>
      obtain ⟨b, -, rfl⟩ := Checked.map_eq_sound_iff.1 h
      exact Checked.map_eq_sound_iff.2 ⟨b, rfl, rfl⟩
  | delayFeedback | roomSize =>
      obtain ⟨x, hx, rfl⟩ := Checked.map_eq_sound_iff.1 h
      have hLe := (ceiling_eq_sound_iff.1 hx).2
      exact Checked.map_eq_sound_iff.2 ⟨x, ceiling_eq_sound_iff.2 ⟨rfl, hLe⟩, rfl⟩

/-- A policy is well formed when each of its limits is read as itself. -/
theorem wellFormed_iff (p : Policy) :
    p.WellFormed ↔ ∀ l : Limit, l.read (p.limit l) = .sound (p.limit l) := by
  constructor
  · intro h l
    cases l with
    | voices | lines | randomness | effects =>
        exact Checked.map_eq_sound_iff.2 ⟨_, integerFrom_zero _, rfl⟩
    | tempo | foreignSamples => rfl
    | delayFeedback =>
        exact Checked.map_eq_sound_iff.2 ⟨_, ceiling_eq_sound_iff.2 ⟨rfl, h.delayFeedback⟩, rfl⟩
    | roomSize =>
        exact Checked.map_eq_sound_iff.2 ⟨_, ceiling_eq_sound_iff.2 ⟨rfl, h.roomSize⟩, rfl⟩
  · intro h
    have hCeiling : ∀ x, Json.float <$> Field.ceiling (.float x) = .sound (.float x) →
        Binary64.zero.le x := by
      intro x hx
      obtain ⟨y, hy, hSame⟩ := Checked.map_eq_sound_iff.1 hx
      obtain rfl := Json.float.inj hSame
      exact (ceiling_eq_sound_iff.1 hy).2
    exact ⟨hCeiling _ (h .delayFeedback), hCeiling _ (h .roomSize)⟩

/-! ### Policies of an object -/

/-- What an object with external names holds for a limit: the standard where it is silent. -/
def held (l : Limit) (ms : List (Text × Json)) : Checked Json :=
  (Json.member? l.externalName ms).elim (.sound (standard.limit l)) l.read

theorem defaulted_eq_sound_iff {α : Type} {name : Text} {fallback a : α} {read : Json → Checked α}
    {ms : List (Text × Json)} {toJson : α → Json} (hInjective : Function.Injective toJson) :
    Field.defaulted name fallback read ms = .sound a ↔
      (Json.member? name ms).elim (.sound (toJson fallback)) (fun value => toJson <$> read value) =
        .sound (toJson a) := by
  unfold Field.defaulted
  cases Json.member? name ms with
  | none => simp [hInjective.eq_iff]
  | some value => simp [hInjective.eq_iff]

/-- An object holds a policy when it holds each of its limits, and nothing that is no limit. -/
theorem ofMembers_eq_sound_iff {ms : List (Text × Json)} {q : Policy} :
    ofMembers ms = .sound q ↔ (∀ l : Limit, held l ms = .sound (q.limit l)) ∧
      ∀ key, (∀ l : Limit, key ≠ l.externalName) → Json.member? key ms = none := by
  have hInt : Function.Injective fun n : Nat => Json.int n := fun m n h =>
    Int.ofNat_inj.1 (Json.int.inj h)
  have hBool : Function.Injective Json.bool := fun a b => Json.bool.inj
  have hFloat : Function.Injective Json.float := fun x y => Json.float.inj
  simp only [ofMembers, Checked.seq_eq_sound_iff, Checked.map_eq_sound_iff,
    defaulted_eq_sound_iff hInt, defaulted_eq_sound_iff hBool, defaulted_eq_sound_iff hFloat,
    Field.onlyNamed_eq_sound_iff, Limit.mem_externalNames_iff, not_exists, Limit.forall_iff, held]
  constructor
  · rintro ⟨_, _, ⟨_, _, ⟨_, _, ⟨_, _, ⟨_, _, ⟨_, _, ⟨_, _, ⟨_, _, ⟨_, hVoices, rfl⟩,
      hLines, rfl⟩, hRandomness, rfl⟩, hEffects, rfl⟩, hTempo, rfl⟩, hSamples, rfl⟩,
      hFeedback, rfl⟩, hRoom, rfl⟩, hOthers, rfl⟩
    exact ⟨⟨hVoices, hLines, hRandomness, hEffects, hTempo, hSamples, hFeedback, hRoom⟩, hOthers⟩
  · rintro ⟨⟨hVoices, hLines, hRandomness, hEffects, hTempo, hSamples, hFeedback, hRoom⟩, hOthers⟩
    exact ⟨_, (), ⟨_, _, ⟨_, _, ⟨_, _, ⟨_, _, ⟨_, _, ⟨_, _, ⟨_, _, ⟨_, hVoices, rfl⟩,
      hLines, rfl⟩, hRandomness, rfl⟩, hEffects, rfl⟩, hTempo, rfl⟩, hSamples, rfl⟩,
      hFeedback, rfl⟩, hRoom, rfl⟩, hOthers, rfl⟩

/-- A member that no policy can have: its name is no limit's, or its value is refused for the limit
of that name. -/
def Unfit (m : Text × Json) : Prop :=
  ∀ l : Limit, m.1 = l.externalName → ∀ value, l.read m.2 ≠ .sound value

theorem blames_limit {α : Type} (l : Limit) {fallback : α} {read : Json → Checked α}
    {toJson : α → Json} {ms : List (Text × Json)}
    (hRead : ∀ value, l.read value = toJson <$> read value)
    (hWhole : ∀ value, (read value).Blames (·.OfWhole value)) :
    (Field.defaulted l.externalName fallback read ms).Blames
      fun f => ∃ m ∈ ms, Unfit m ∧ f.OfMember m := by
  refine (Field.blames_defaulted hWhole).mono fun f => ?_
  rintro ⟨value, hMem, hFault, hRefused⟩
  refine ⟨_, hMem, fun k hName taken hTaken => ?_, hFault⟩
  obtain rfl := Limit.externalName_injective hName
  rw [hRead] at hTaken
  obtain ⟨a, ha, -⟩ := Checked.map_eq_sound_iff.1 hTaken
  exact hRefused a ha

/-- An object that holds no policy is at fault in members that no policy can have. -/
theorem blames_ofMembers (ms : List (Text × Json)) :
    (ofMembers ms).Blames fun f => ∃ m ∈ ms, Unfit m ∧ f.OfMember m := by
  have hWhole := Field.blames_integerFrom 0
  have hOthers : (Field.onlyNamed (names.map Prod.snd) ms).Blames
      fun f => ∃ m ∈ ms, Unfit m ∧ f.OfMember m := by
    refine (Field.blames_onlyNamed _ ms).mono fun f => ?_
    rintro ⟨m, hMem, hName, hFault⟩
    exact ⟨m, hMem, fun l hl => absurd (Limit.mem_externalNames_iff.2 ⟨l, hl⟩) hName, hFault⟩
  refine .seq (.seq (.seq (.seq (.seq (.seq (.seq (.seq (.map ?_ _) ?_) ?_) ?_) ?_) ?_) ?_) ?_)
    hOthers
  · exact blames_limit .voices (fun _ => rfl) hWhole
  · exact blames_limit .lines (fun _ => rfl) hWhole
  · exact blames_limit .randomness (fun _ => rfl) hWhole
  · exact blames_limit .effects (fun _ => rfl) hWhole
  · exact blames_limit .tempo (fun _ => rfl) Field.blames_flag
  · exact blames_limit .foreignSamples (fun _ => rfl) Field.blames_flag
  · exact blames_limit .delayFeedback (fun _ => rfl) Field.blames_ceiling
  · exact blames_limit .roomSize (fun _ => rfl) Field.blames_ceiling

end Composer.Policy
