import Composer.Proofs.Code.Ceilings
import Composer.Proofs.Code.Limits
import Composer.Proofs.Number.Layout
import Composer.Proofs.Number.ShortDecimals
import Composer.Proofs.Prompt.Limits

/-!
How far the limits that the instructions show are those that are applied. The whole ones are exact.
Of the ceilings on strength six digits are shown, so one with more of them may be shown as a greater
number, and code that makes full use of that is rejected.
-/

namespace Composer

open Text

namespace Binary64

/-- A ceiling is shown as a text: a numeral, perhaps a zero with a minus in front, which is the
ceiling rounded to six digits. The number `y` that is read from the text exceeds the ceiling only
when it was rounded up; then it does unless rounding to the format takes it back. Six digits are
enough for a ceiling that is written with no more of them and has an ordinary size. A call that is
written with the shown text has `y` for its argument, unless the ceiling is so small or so great
that it is shown with an exponent, at which the reading of an argument ends. -/
structure Shows (c : Binary64) (t : Text) (x : Numeral) (y : Binary64) : Prop where
  spelled : t = x.source ∨ t = '-' :: x.source ∧ x.value = 0
  read : Reading.plainNumber? t = some y
  rounded : RoundsTo 6 c.value x.value
  lt_iff : c.lt y ↔ c.value < x.value ∧ y.sameValue c = false
  positional : 10 ^ (-4 : Int) ≤ x.value → x.value < 10 ^ (6 : Int) → x.exponent = none
  used : t = x.source → ∀ rest, Call.decimal? (t ++ ')' :: rest) =
    some (x.rounded, Numeral.exponentSource x.exponent ++ ')' :: rest)
  rounded_eq : t = x.source → x.exponent = none → x.rounded = y
  exact_of_short : ∀ (digits : Nat) (e : Int), c = .ofDecimal false digits e → digits < 10 ^ 6 →
    (10 : ℚ) ^ (-300 : Int) ≤ digits * 10 ^ e → (digits : ℚ) * 10 ^ e ≤ 10 ^ (300 : Int) →
      x.value = digits * 10 ^ e ∧ y = c

/-- A decimal with six digits at most and of an ordinary size is far nearer to the number of the
format that stands for it than to other decimals of that kind. -/
theorem eq_of_roundsTo_of_short {c : Binary64} {v : ℚ} (h : RoundsTo 6 c.value v) {digits : Nat}
    {e : Int} (hDecimal : c = .ofDecimal false digits e) (hShort : digits < 10 ^ 6)
    (hLow : (10 : ℚ) ^ (-300 : Int) ≤ digits * 10 ^ e)
    (hHigh : (digits : ℚ) * 10 ^ e ≤ 10 ^ (300 : Int)) : v = digits * 10 ^ e := by
  have hPositive : (0 : ℚ) < digits * 10 ^ e := lt_of_lt_of_le (by positivity) hLow
  obtain ⟨rank, hRank, hFaithful⟩ := exists_ofDecimal false digits e
  have hValue : c.value = magnitude rank := by rw [hDecimal, hRank]; rfl
  rw [hValue] at h
  refine h.eq_of_short hShort hPositive ((hFaithful.abs_magnitude_sub_le hLow hHigh).trans ?_)
  have hNear : (2 : ℚ) ^ (-52 : Int) ≤ 1 / 10 ^ 15 := by norm_num
  calc (digits : ℚ) * 10 ^ e * 2 ^ (-52 : Int)
    _ ≤ digits * 10 ^ e * (1 / 10 ^ 15) := mul_le_mul_of_nonneg_left hNear hPositive.le
    _ = digits * 10 ^ e / 10 ^ 15 := mul_one_div _ _

section
variable {c : Binary64} (hFinite : c.isFinite) (hNonneg : zero.le c)
include hNonneg

theorem not_lt_signed_zero (negative : Bool) : ¬c.lt (.signed negative 0) := by
  cases c with
  | nan => exact Bool.false_ne_true
  | signed sign rank =>
      have hPlace : (0 : Int) ≤ place sign rank := of_decide_eq_true hNonneg
      cases negative <;> simpa [lt, place] using hPlace

include hFinite

theorem value_nonneg : 0 ≤ c.value := by
  obtain ⟨-, rank, -, -, hMagnitude, -⟩ := exists_rank hFinite hNonneg
  rw [hMagnitude, ← magnitude_zero]
  exact magnitude_strictMono.monotone (Nat.zero_le rank)

section
variable {x : Numeral} (hRounded : RoundsTo 6 c.value x.value)
  (hPositional : 10 ^ (-4 : Int) ≤ x.value → x.value < 10 ^ (6 : Int) → x.exponent = none)
include hRounded hPositional

/-- A zero is shown with a minus in front all the same. -/
theorem shows_of_digits_eq_zero (hDigits : x.digits = 0) :
    c.Shows ('-' :: x.source) x (.ofDecimal true x.digits x.power) := by
  have hValue : x.value = 0 := by rw [Numeral.value_eq, hDigits, Nat.cast_zero, zero_mul]
  have hRead : ofDecimal true x.digits x.power = .signed true 0 := by
    rw [hDigits, ofDecimal, if_pos rfl]
  constructor
  case spelled => exact .inr ⟨rfl, hValue⟩
  case read => exact Reading.plainNumber?_source rfl
  case rounded => exact hRounded
  case lt_iff =>
    rw [hRead, hValue]
    refine iff_of_false (not_lt_signed_zero hNonneg true) fun hLess => ?_
    exact absurd hLess.1 (not_lt.2 (value_nonneg hFinite hNonneg))
  case positional => exact hPositional
  case used => exact fun hSame => absurd hSame (List.cons_ne_self _ _)
  case rounded_eq => exact fun hSame => absurd hSame (List.cons_ne_self _ _)
  case exact_of_short =>
    intro digits e hDecimal hShort hLow hHigh
    have hSame := eq_of_roundsTo_of_short hRounded hDecimal hShort hLow hHigh
    rw [← hSame, hValue] at hLow
    exact absurd hLow (not_le.2 (by positivity))

omit hNonneg in
/-- A numeral to which a ceiling rounds shows it. -/
theorem shows_of_roundsTo : c.Shows x.source x (.ofDecimal false x.digits x.power) := by
  constructor
  case spelled => exact .inl rfl
  case read => exact Reading.plainNumber?_source (Reading.sign_source x)
  case rounded => exact hRounded
  case lt_iff =>
    rw [Numeral.value_eq, ← below_iff_value_lt hFinite]
    exact lt_ofDecimal_iff c x.digits x.power
  case positional => exact hPositional
  case used =>
    intro _ rest
    have hUsed := @Strength.decimal?_source x [] rest rfl
    rwa [List.append_nil, List.append_nil] at hUsed
  case rounded_eq =>
    intro _ hNone
    rw [Numeral.rounded, Numeral.power, hNone, Option.elim_none, zero_sub]
  case exact_of_short =>
    intro digits e hDecimal hShort hLow hHigh
    have hValue := eq_of_roundsTo_of_short hRounded hDecimal hShort hLow hHigh
    refine ⟨hValue, ?_⟩
    rw [Numeral.value_eq] at hValue
    rw [hDecimal]
    exact (ofDecimal_eq_of_eq hLow hHigh hValue.symm false).symm

end

end

end Binary64

namespace Strength

/-- `2.0`, which is shown for the ceiling of gains. -/
def two : Numeral := ⟨['2'], some ['0'], none, by decide, by decide, List.cons_ne_nil _ _⟩

theorem value_two : two.value = 2 := by
  have hDigits : two.digits = 20 := by decide
  have hPower : two.power = -1 := by decide
  rw [Numeral.value_eq, hDigits, hPower]
  norm_num

theorem value_maxGain : Policy.maxGain.value = 2 := by
  have hFinite : Policy.maxGain.isFinite := by decide +kernel
  refine eq_of_forall_gt_iff fun x => ?_
  rw [← Binary64.below_iff_value_lt hFinite]
  exact Binary64.below_ofInt_two_iff x

theorem roundsTo_two : Binary64.RoundsTo 6 2 2 := by
  have hTop : Binary64.HasTop 2 0 := ⟨by norm_num, by norm_num⟩
  refine .digits hTop (m := 200000) ⟨by norm_num, fun _ => by decide⟩ (by norm_num)

theorem exists_shows (p : Policy) (m : Strength) (hFinite : (m.ceiling p).isFinite)
    (hNonneg : Binary64.zero.le (m.ceiling p)) :
    ∃ x y, (m.ceiling p).Shows (Prompt.shownStrength p m) x y := by
  have hRounded {c : Binary64} (hc : c.isFinite) (hAtLeast : Binary64.zero.le c) :
      ∃ x y, c.Shows c.toRoundedText x y := by
    obtain ⟨negative, x, hText, hZero, hRounds, hPositional⟩ :=
      Binary64.exists_numeral_toRoundedText hc hAtLeast
    rw [hText]
    cases negative with
    | true =>
        exact ⟨x, _, Binary64.shows_of_digits_eq_zero hc hAtLeast hRounds hPositional (hZero rfl)⟩
    | false => exact ⟨x, _, Binary64.shows_of_roundsTo hc hRounds hPositional⟩
  cases m with
  | delayFeedback => exact hRounded hFinite hNonneg
  | room => exact hRounded hFinite hNonneg
  | gain =>
      have hText : Policy.maxGain.toText = two.source := by decide +kernel
      have hRounds : Binary64.RoundsTo 6 Policy.maxGain.value two.value := by
        rw [value_maxGain, value_two]
        exact roundsTo_two
      have hShows := Binary64.shows_of_roundsTo hFinite hRounds fun _ _ => rfl
      exact ⟨two, _, hText ▸ hShows⟩

end Strength

namespace Prompt

open Validation

/-- The ceilings of a policy as they are shown: the whole ones exactly, the others rounded. -/
structure ShownCeilings.Reflects (shown : ShownCeilings) (p : Policy) : Prop where
  voices : Reading.decimal? shown.voices = some (p.maxVoices, 0)
  effects : Reading.decimal? shown.effects = some (p.maxEffectsPerVoice, 0)
  randomness : Reading.decimal? shown.randomness = some (p.maxRandomUsage, 0)
  strength (m : Strength) : ∃ x y, (m.ceiling p).Shows (shown.strength m) x y

/-- Code that keeps to the ceilings that a prompt shows, as the numbers in both are read. -/
structure ShownCeilings.KeptBy (shown : ShownCeilings) (code : Text) : Prop where
  voices : ∃ n, Reading.decimal? shown.voices = some (n, 0) ∧ Measure.voices code ≤ n
  effects : ∃ n, Reading.decimal? shown.effects = some (n, 0) ∧ Measure.maxEffectsOnVoice code ≤ n
  randomness : ∃ n, Reading.decimal? shown.randomness = some (n, 0) ∧ Measure.randomUses code ≤ n
  strength (m : Strength) : ∃ y, Reading.plainNumber? (shown.strength m) = some y ∧
    ∀ z ∈ Measure.arguments m.name code, z.le y

/-- A ceiling of a policy that is shown as a greater number. -/
def ShownCeilings.Exceeds (shown : ShownCeilings) (p : Policy) (m : Strength)
    (y : Binary64) : Prop :=
  Reading.plainNumber? (shown.strength m) = some y ∧ (m.ceiling p).lt y

/-- A whole number is shown as it is. -/
theorem decimal?_ofNat (n : Nat) : Reading.decimal? (ofNat n) = some (n, 0) := by
  have hSource := Reading.decimal?_source
    ⟨ofNat n, none, none, all_ofNat n, rfl, by
      obtain ⟨k, hLength, -⟩ := length_ofNat n
      rw [Option.getD_none, List.append_nil]
      exact List.ne_nil_of_length_pos (by omega)⟩
  simpa [Numeral.source, Numeral.fractionSource, Numeral.exponentSource, Numeral.digits,
    Numeral.power, Numeral.places, digitsValue_ofNat] using hSource

section
variable (p : Policy) (hCeilings : ∀ m : Strength, (m.ceiling p).isFinite ∧
  Binary64.zero.le (m.ceiling p))
include hCeilings

/-- A shown ceiling does not run on into what stands around it. -/
theorem plain_shownStrength (m : Strength) : ∀ c ∈ shownStrength p m, c ≠ ',' ∧ c ≠ lineFeed := by
  obtain ⟨x, y, hShows⟩ := m.exists_shows p (hCeilings m).1 (hCeilings m).2
  have hPlain {c : Char} (hc : c = '-' ∨ c ∈ x.source) : c ≠ ',' ∧ c ≠ lineFeed := by
    have hOther : isAsciiDigit c ∨ c ∈ (".eE+-" : Text) := by
      rcases hc with rfl | hSource
      · exact .inr (by decide)
      · exact Numeral.isAsciiDigit_or_mem_of_mem_source hSource
    rcases hOther with hDigit | hMark
    · exact ⟨ne_of_isAsciiDigit hDigit (by decide), ne_of_isAsciiDigit hDigit (by decide)⟩
    · constructor
      · rintro rfl
        exact absurd hMark (by decide)
      · rintro rfl
        exact absurd hMark (by decide)
  intro c hc
  rcases hShows.spelled with hText | ⟨hText, -⟩
  · exact hPlain (.inr (hText ▸ hc))
  · rw [hText, List.mem_cons] at hc
    exact hPlain hc

/-- The instructions show the limits that are applied, but for rounding. All of them are found
there. Code that keeps to what is shown breaks none of the rules on voices, effects and randomness,
and the rule on strength only if a ceiling is shown as a number that exceeds it; and then all code
breaks that rule which has the number for an argument. -/
theorem system_shows_ceilings :
    ∃ shown, shownCeilings? (system p) = some shown ∧ shown.Reflects p ∧
      (∀ code, shown.KeptBy code → ¬Breaks p code .voices ∧ ¬Breaks p code .density ∧
        ¬Breaks p code .randomness ∧ (Breaks p code .strength → ∃ m y, shown.Exceeds p m y)) ∧
      (∀ m y code found, shown.Exceeds p m y → y ∈ Measure.arguments m.name code →
        issues p code = .ok found → Breaks p code .strength) := by
  have hReflects : ShownCeilings.Reflects ⟨ofNat p.maxVoices, ofNat p.maxEffectsPerVoice,
      ofNat p.maxRandomUsage, shownStrength p⟩ p :=
    ⟨decimal?_ofNat _, decimal?_ofNat _, decimal?_ofNat _,
      fun m => m.exists_shows p (hCeilings m).1 (hCeilings m).2⟩
  refine ⟨_, shownCeilings?_system p (plain_shownStrength p hCeilings), hReflects, ?kept, ?exceeded⟩
  case kept =>
    intro code hKept
    obtain ⟨voices, hVoices, hFewVoices⟩ := hKept.voices
    obtain ⟨effects, hEffects, hFewEffects⟩ := hKept.effects
    obtain ⟨uses, hUses, hFewUses⟩ := hKept.randomness
    obtain ⟨rfl, -⟩ := Prod.mk.inj (Option.some.inj ((decimal?_ofNat _).symm.trans hVoices))
    obtain ⟨rfl, -⟩ := Prod.mk.inj (Option.some.inj ((decimal?_ofNat _).symm.trans hEffects))
    obtain ⟨rfl, -⟩ := Prod.mk.inj (Option.some.inj ((decimal?_ofNat _).symm.trans hUses))
    have hLimits {rule : Rule} (hBreaks : Breaks p code rule) :=
      let ⟨_, hJudged, _⟩ := hBreaks
      breaks_limit_iff hJudged
    refine ⟨?voices, ?density, ?randomness, ?strength⟩
    case voices =>
      intro hBreaks
      obtain ⟨hVoicesIff, -⟩ := hLimits hBreaks
      exact absurd (hVoicesIff.1 hBreaks) (Nat.not_lt.2 hFewVoices)
    case density =>
      intro hBreaks
      obtain ⟨-, -, -, hDensityIff⟩ := hLimits hBreaks
      exact absurd (hDensityIff.1 hBreaks) (Nat.not_lt.2 hFewEffects)
    case randomness =>
      intro hBreaks
      obtain ⟨-, hRandomnessIff, -⟩ := hLimits hBreaks
      exact absurd (hRandomnessIff.1 hBreaks) (Nat.not_lt.2 hFewUses)
    case strength =>
      intro hBreaks
      obtain ⟨-, -, hStrengthIff, -⟩ := hLimits hBreaks
      obtain ⟨m, hAny⟩ := (Strength.hasExtremeEffects_iff_exists p code).1 (hStrengthIff.1 hBreaks)
      obtain ⟨z, hArgument, hStrong⟩ := List.any_eq_true.1 hAny
      obtain ⟨y, hRead, hKeeps⟩ := hKept.strength m
      exact ⟨m, y, hRead, Binary64.lt_trans_le hStrong (hKeeps z hArgument)⟩
  case exceeded =>
    intro m y code found hExceeds hArgument hJudged
    obtain ⟨-, -, hStrengthIff, -⟩ := breaks_limit_iff hJudged
    rw [hStrengthIff, Strength.hasExtremeEffects_iff_exists]
    exact ⟨m, List.any_eq_true.2 ⟨y, hArgument, hExceeds.2⟩⟩

end

/-- A ceiling for rooms with seven digits. -/
def roomPolicy : Policy := { Policy.standard with maxRoomSize := .ofDecimal false 9999999 (-7) }

theorem ceiling_roomPolicy (m : Strength) :
    (m.ceiling roomPolicy).isFinite ∧ Binary64.zero.le (m.ceiling roomPolicy) := by
  cases m <;> decide +kernel

theorem system_shows_ceilings_of_roomPolicy :
    (∀ m : Strength, (m.ceiling roomPolicy).isFinite ∧ Binary64.zero.le (m.ceiling roomPolicy)) ∧
    ∃ shown, shownCeilings? (system roomPolicy) = some shown ∧ shown.Reflects roomPolicy ∧
      (∀ code, shown.KeptBy code → ¬Breaks roomPolicy code .voices ∧
        ¬Breaks roomPolicy code .density ∧ ¬Breaks roomPolicy code .randomness ∧
        (Breaks roomPolicy code .strength → ∃ m y, shown.Exceeds roomPolicy m y)) ∧
      (∀ m y code found, shown.Exceeds roomPolicy m y → y ∈ Measure.arguments m.name code →
        issues roomPolicy code = .ok found → Breaks roomPolicy code .strength) :=
  ⟨ceiling_roomPolicy, system_shows_ceilings roomPolicy ceiling_roomPolicy⟩

def roomCode : Text :=
  "setcpm(90)\n\n// drums\n$: s(\"bd ~ sd ~\").room(1)\n$: s(\"hh*8\")\n$: note(\"c2\")\n$: s(\"cp\")"

/-- The ceiling is shown rounded up, and code that keeps to what is shown is rejected for it, and
for nothing else. -/
theorem rounded_ceiling_misleads :
    ∃ shown, shownCeilings? (system roomPolicy) = some shown ∧ shown.strength .room = "1" ∧
      Reading.plainNumber? "1" = some (.ofInt 1) ∧ roomPolicy.maxRoomSize.lt (.ofInt 1) ∧
      shown.KeptBy roomCode ∧ issues roomPolicy roomCode =
        .ok [.extremeEffects roomPolicy.maxDelayFeedback roomPolicy.maxRoomSize] := by
  refine ⟨_, shownCeilings?_system roomPolicy (plain_shownStrength _ ceiling_roomPolicy),
    by decide +kernel, by decide +kernel, by decide +kernel, ?_,
    eq_ok_of_toOption (by decide +kernel)⟩
  refine ⟨⟨8, decimal?_ofNat 8, by decide +kernel⟩, ⟨8, decimal?_ofNat 8, by decide +kernel⟩,
    ⟨15, decimal?_ofNat 15, by decide +kernel⟩, fun m => ?_⟩
  cases m with
  | delayFeedback =>
      have hRead : Reading.plainNumber? (shownStrength roomPolicy .delayFeedback) =
        some (.ofDecimal false 7 (-1)) := by decide +kernel
      exact ⟨_, hRead, by decide +kernel⟩
  | room =>
      have hRead : Reading.plainNumber? (shownStrength roomPolicy .room) = some (.ofInt 1) := by
        decide +kernel
      exact ⟨_, hRead, by decide +kernel⟩
  | gain =>
      have hRead : Reading.plainNumber? (shownStrength roomPolicy .gain) = some (.ofInt 2) := by
        decide +kernel
      exact ⟨_, hRead, by decide +kernel⟩

end Prompt

end Composer
