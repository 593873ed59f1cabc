import Composer.Policy
import Composer.Proofs.Code.Continuation
import Composer.Proofs.Number.Numeral
import Composer.Proofs.Number.Rounding

/-!
Ceilings on the strength of effects. The argument of a call is read as a decimal up to its exponent,
and what follows is not looked at. So a number is compared with the ceiling as it is written as long
as it has no exponent, in all other spellings and with any number of digits; of one with an exponent
only the part before that is compared, and `1e3` passes for one.
-/

namespace Composer

open Text

namespace Call

/-- A numeral is read up to its exponent, if something else than a digit or a point follows. -/
theorem decimal?_numeral (x : Numeral) {c : Char} (hDigit : isDecimalDigit c = false)
    (hPoint : c ≠ '.') (rest : Text) :
    decimal? (x.whole ++ Numeral.fractionSource x.fraction ++ c :: rest) =
      some (x.rounded, c :: rest) := by
  have hWhole : ∀ d ∈ x.whole, isDecimalDigit d := fun d hd =>
    isDecimalDigit_of_isAsciiDigit (List.all_eq_true.1 x.wholeDigits d hd)
  have hAll {t : Text} (ht : ∀ d ∈ t, isDecimalDigit d) {d : Char}
      (hd : isDecimalDigit d = false) (more : Text) :
      (t ++ d :: more).takeWhile isDecimalDigit = t ∧
        (t ++ d :: more).dropWhile isDecimalDigit = d :: more := by
    rw [takeWhile_append_cons hd, dropWhile_append_cons hd, List.takeWhile_eq_self_iff.2 ht,
      List.dropWhile_eq_nil_iff.2 ht]
    exact ⟨rfl, rfl⟩
  have hFilled := x.filled
  cases hFraction : x.fraction with
  | none =>
      obtain ⟨hTake, hDrop⟩ := hAll hWhole hDigit rest
      have hNoPoint : ∀ u, (x.whole ++ c :: rest).dropWhile isDecimalDigit ≠ '.' :: u := by
        intro u hu
        rw [hDrop] at hu
        exact hPoint (List.cons.inj hu).1
      have hNonempty : x.whole ≠ [] := by simpa [hFraction] using hFilled
      rw [Numeral.fractionSource, List.append_nil, decimal?_of_whole hNoPoint, hTake, hDrop,
        if_neg hNonempty]
      simp [Numeral.rounded, Numeral.digits, Numeral.places, hFraction]
  | some digits =>
      have hFractionDigits := x.fractionDigits
      rw [hFraction, Option.getD_some] at hFractionDigits
      have hDigits : ∀ d ∈ digits, isDecimalDigit d := fun d hd =>
        isDecimalDigit_of_isAsciiDigit (List.all_eq_true.1 hFractionDigits d hd)
      obtain ⟨hTake, hDrop⟩ := hAll hWhole (d := '.') (by decide) (digits ++ c :: rest)
      obtain ⟨hTake', hDrop'⟩ := hAll hDigits hDigit rest
      have hNonempty : ¬(x.whole = [] ∧ digits = []) := by
        rintro ⟨hw, hd⟩
        exact hFilled (by rw [hFraction, hw, hd]; rfl)
      rw [Numeral.fractionSource, List.append_assoc, List.cons_append, decimal?_of_point hDrop,
        hTake, hTake', hDrop', if_neg hNonempty]
      simp [Numeral.rounded, Numeral.digits, Numeral.places, hFraction]

end Call

/-! ### Ceilings -/

/-- A method whose argument has a ceiling. -/
inductive Strength where
  | delayFeedback
  | room
  | gain
  deriving DecidableEq, Repr

namespace Strength

def name : Strength → Text
  | delayFeedback => "delayfeedback"
  | room => "room"
  | gain => "gain"

def ceiling (p : Policy) : Strength → Binary64
  | delayFeedback => p.maxDelayFeedback
  | room => p.maxRoomSize
  | gain => Policy.maxGain

/-- The call of a method with one numeral, with white space around that, and what follows it. -/
def call (m : Strength) (gap lead : Text) (x : Numeral) (tail after : Text) : Text :=
  '.' :: m.name ++ gap ++ '(' :: (lead ++ x.source ++ tail ++ ')' :: after)

theorem hasExtremeEffects_iff_exists (p : Policy) (code : Text) :
    Measure.hasExtremeEffects p code ↔
      ∃ m : Strength, (Measure.arguments m.name code).any (m.ceiling p).lt := by
  simp only [Measure.hasExtremeEffects, Bool.or_eq_true]
  constructor
  · rintro ((hFeedback | hRoom) | hGain)
    · exact ⟨.delayFeedback, hFeedback⟩
    · exact ⟨.room, hRoom⟩
    · exact ⟨.gain, hGain⟩
  · rintro ⟨m, hAny⟩
    cases m with
    | delayFeedback => exact .inl (.inl hAny)
    | room => exact .inl (.inr hAny)
    | gain => exact .inr hAny

theorem unbroken_arguments (m : Strength) : Call.Unbroken (Call.methodWithDecimal? m.name) := by
  cases m <;> exact Call.unbroken_methodWithDecimal? (by decide) (by decide)

section
variable (m : Strength) {gap lead : Text} (x : Numeral) {tail : Text} (after : Text)
variable (hGap : gap.isBlankText) (hLead : lead.isBlankText) (hTail : tail.isBlankText)

include hGap in
theorem method?_call :
    Call.method? m.name (m.call gap lead x tail after) =
      some (lead ++ x.source ++ tail ++ ')' :: after) :=
  (Call.named?_eq_some_iff _ _ _).2 ⟨gap, List.all_eq_true.1 hGap, rfl⟩

theorem method?_call_of_ne {other : Strength} (h : other ≠ m) :
    Call.method? other.name (m.call gap lead x tail after) = none := by
  cases other <;> cases m <;> first | exact absurd rfl h | rfl

include hTail in
/-- What follows the number before the exponent goes on with neither a digit nor a point. -/
theorem exists_behind_mantissa :
    ∃ c rest, Numeral.exponentSource x.exponent ++ tail ++ ')' :: after = c :: rest ∧
      isDecimalDigit c = false ∧ c ≠ '.' := by
  cases x.exponent with
  | some e =>
      refine ⟨e.mark, Exponent.signSource e.sign ++ e.digits ++ tail ++ ')' :: after, rfl, ?_⟩
      rcases e.isMark with hMark | hMark <;>
        · rw [hMark]
          decide
  | none =>
      cases tail with
      | nil => exact ⟨')', after, rfl, by decide, by decide⟩
      | cons c tail =>
          have hBlank : isBlank c := List.all_eq_true.1 hTail c List.mem_cons_self
          refine ⟨c, tail ++ ')' :: after, rfl, isDecimalDigit_eq_false_of_isBlank hBlank, ?_⟩
          rintro rfl
          exact absurd hBlank (by decide)

include hTail in
/-- A numeral in front of a closing bracket is read up to its exponent. -/
theorem decimal?_source :
    Call.decimal? (x.source ++ tail ++ ')' :: after) =
      some (x.rounded, Numeral.exponentSource x.exponent ++ tail ++ ')' :: after) := by
  obtain ⟨c, rest, hBehind, hDigit, hPoint⟩ := exists_behind_mantissa x after hTail
  have hSource : x.source ++ tail ++ ')' :: after =
      x.whole ++ Numeral.fractionSource x.fraction ++ c :: rest := by
    rw [← hBehind, Numeral.source]
    simp only [List.append_assoc]
  rw [hSource, hBehind, Call.decimal?_numeral x hDigit hPoint]

include hGap hLead hTail in
theorem methodWithDecimal?_call :
    Call.methodWithDecimal? m.name (m.call gap lead x tail after) =
      some (x.rounded, Numeral.exponentSource x.exponent ++ tail ++ ')' :: after) := by
  obtain ⟨first, others, hFirst, hFilled⟩ := x.exists_source_eq_cons
  have hArgument : skipBlanks (lead ++ x.source ++ tail ++ ')' :: after) =
      x.source ++ tail ++ ')' :: after := by
    rw [skipBlanks, List.append_assoc, List.append_assoc,
      List.dropWhile_append_of_pos (List.all_eq_true.1 hLead), hFirst, List.cons_append,
      List.dropWhile_cons_of_neg (by simp [hFilled]), ← List.cons_append, List.append_assoc]
  rw [Call.methodWithDecimal?, method?_call m x after hGap, Option.bind_some, hArgument,
    decimal?_source x after hTail]

variable {before : Text} (hSingle : ∀ (other : Strength) (u : Text),
  u <:+ before ++ m.call gap lead x tail after → (Call.method? other.name u).isSome →
    u = m.call gap lead x tail after)
include hGap hLead hTail hSingle

/-- In code with one such call the argument of that is the only one. -/
theorem arguments_of_single (other : Strength) :
    Measure.arguments other.name (before ++ m.call gap lead x tail after) =
      if other = m then [x.rounded] else [] := by
  have hFound := methodWithDecimal?_call m x after hGap hLead hTail
  have hCalled (u : Text) (hSome : (Call.methodWithDecimal? other.name u).isSome) :
      (Call.method? other.name u).isSome := by
    obtain ⟨found, hFound⟩ := Option.isSome_iff_exists.1 hSome
    obtain ⟨rest, hRest, -⟩ := Option.bind_eq_some_iff.1 hFound
    exact Option.isSome_of_mem hRest
  by_cases hSame : other = m
  · subst hSame
    rw [if_pos rfl, Measure.arguments]
    refine Call.findAll_eq_singleton (unbroken_arguments other).shrinks hFound ?_
      fun u hu hSome => hSingle other u hu (hCalled u hSome)
    refine ⟨'.' :: other.name ++ gap ++ '(' :: (lead ++ x.whole ++
      Numeral.fractionSource x.fraction), ?_⟩
    simp [call, Numeral.source]
  · rw [if_neg hSame, Measure.arguments]
    refine Call.findAll_eq_nil (unbroken_arguments other).shrinks fun u hu _ => ?_
    rw [← Option.not_isSome_iff_eq_none]
    intro hSome
    have hMethod := hCalled u hSome
    rw [hSingle other u hu hMethod, method?_call_of_ne m x after hSame] at hMethod
    exact absurd hMethod Bool.false_ne_true

/-- A ceiling sees a number up to its exponent. In code with one call of the three methods, on one
numeral, the effect is found extreme exactly when the number before the exponent exceeds the ceiling
of the method and is not rounded to it; without an exponent that is the number itself. -/
theorem hasExtremeEffects_iff (p : Policy) :
    (Measure.hasExtremeEffects p (before ++ m.call gap lead x tail after) ↔
      (m.ceiling p).Below x.mantissa ∧ x.rounded.sameValue (m.ceiling p) = false) ∧
    (x.exponent = none →
      (Measure.hasExtremeEffects p (before ++ m.call gap lead x tail after) ↔
        (m.ceiling p).Below x.value ∧ x.rounded.sameValue (m.ceiling p) = false)) := by
  have hArguments := arguments_of_single m x after hGap hLead hTail hSingle
  have hExceeds : Measure.hasExtremeEffects p (before ++ m.call gap lead x tail after) ↔
      (m.ceiling p).lt x.rounded := by
    rw [hasExtremeEffects_iff_exists]
    constructor
    · rintro ⟨other, hAny⟩
      rw [hArguments] at hAny
      by_cases hSame : other = m
      · subst hSame
        simpa using hAny
      · simp [hSame] at hAny
    · intro hLess
      exact ⟨m, by simpa [hArguments] using hLess⟩
  have hMantissa := hExceeds.trans (Binary64.lt_ofDecimal_iff (m.ceiling p) x.digits (-x.places))
  exact ⟨hMantissa, fun hNone => by rwa [Numeral.value_of_exponent_eq_none hNone]⟩

end

/-- `.951`, which is just above the standard ceiling for rooms. -/
def smallRoom : Numeral where
  whole := []
  fraction := some "951"
  exponent := none
  wholeDigits := rfl
  fractionDigits := by decide
  filled := by decide

def smallRoomCode : Text := "$: s(\"bd\")" ++ room.call " " " " smallRoom "\n" "\n// roomy"

theorem hasExtremeEffects_iff_of_smallRoom :
    (Measure.hasExtremeEffects Policy.standard smallRoomCode ↔
      (room.ceiling Policy.standard).Below smallRoom.mantissa ∧
        smallRoom.rounded.sameValue (room.ceiling Policy.standard) = false) ∧
    (smallRoom.exponent = none →
      (Measure.hasExtremeEffects Policy.standard smallRoomCode ↔
        (room.ceiling Policy.standard).Below smallRoom.value ∧
          smallRoom.rounded.sameValue (room.ceiling Policy.standard) = false)) ∧
    Measure.hasExtremeEffects Policy.standard smallRoomCode := by
  have hSingle (other : Strength) (u : Text) (hu : u <:+ smallRoomCode)
      (hCalled : (Call.method? other.name u).isSome) :
      u = room.call " " " " smallRoom "\n" "\n// roomy" := by
    have hAll : ∀ u ∈ smallRoomCode.tails, (Call.method? other.name u).isSome →
        u = room.call " " " " smallRoom "\n" "\n// roomy" := by
      cases other <;> decide +kernel
    exact hAll u ((List.mem_tails _ _).2 hu) hCalled
  obtain ⟨hMantissa, hValue⟩ := hasExtremeEffects_iff room smallRoom "\n// roomy" (by decide)
    (by decide) (by decide) hSingle Policy.standard
  exact ⟨hMantissa, hValue, by decide +kernel⟩

/-- `1e3`. -/
def thousand : Numeral where
  whole := "1"
  fraction := none
  exponent := some
    { mark := 'e', sign := none, digits := "3", isMark := .inl rfl, areDigits := by decide
      filled := by decide }
  wholeDigits := by decide
  fractionDigits := rfl
  filled := by decide

def thousandCode : Text := "$: s(\"bd\")" ++ gain.call [] [] thousand [] []

/-- The exponent carries the gain far above its ceiling, in the only call that there is, and the
ceiling does not see it. -/
theorem exponent_passes_ceiling :
    thousandCode = "$: s(\"bd\").gain(1e3)" ∧ thousand.value = 1000 ∧
    (∀ (other : Strength) (u : Text), u <:+ thousandCode →
      (Call.method? other.name u).isSome → u = gain.call [] [] thousand [] []) ∧
    (Binary64.ofInt 1000).sameValue (gain.ceiling Policy.standard) = false ∧
    (gain.ceiling Policy.standard).Below thousand.value ∧
    Measure.hasExtremeEffects Policy.standard thousandCode = false := by
  have hValue : thousand.value = 1000 := by
    have hDigits : thousand.digits = 1 := by decide
    have hPlaces : thousand.places = 0 := by decide
    have hExponent : thousand.exponent.elim 0 Exponent.value = 3 := by decide
    rw [Numeral.value, Numeral.mantissa, hDigits, hPlaces, hExponent]
    norm_num
  refine ⟨by decide +kernel, hValue, fun other u hu hCalled => ?_, by decide +kernel, ?_,
    by decide +kernel⟩
  · have hAll : ∀ u ∈ thousandCode.tails, (Call.method? other.name u).isSome →
        u = gain.call [] [] thousand [] [] := by
      cases other <;> decide +kernel
    exact hAll u ((List.mem_tails _ _).2 hu) hCalled
  · rw [hValue]
    exact (Binary64.below_ofInt_two_iff 1000).2 (by norm_num)

end Strength

end Composer
