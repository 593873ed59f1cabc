import Composer.Proofs.Number.Numeral
import Composer.Proofs.Number.Significant

/-! Decimals that are laid out. Whatever the layout, what is written is a numeral, and its value is
the decimal that was to be written. -/

namespace Composer.Binary64

theorem stripZeros_spec (fuel n : Nat) :
    (stripZeros fuel n).1 * 10 ^ (stripZeros fuel n).2 = n := by
  induction fuel generalizing n with
  | zero => exact Nat.mul_one n
  | succ fuel ih =>
      unfold stripZeros
      split
      · next hZero =>
          simp only
          rw [Nat.pow_succ, ← Nat.mul_assoc, ih, Nat.div_mul_cancel (Nat.dvd_of_mod_eq_zero hZero.1)]
      · exact Nat.mul_one n

/-- What is written for a power of ten is an exponent. -/
theorem exists_exponent (e : Int) :
    ∃ x : Exponent, x.source = 'e' :: exponentText e ∧ x.value = e := by
  obtain ⟨k, hLength, -⟩ := Text.length_ofNat e.natAbs
  have hFilled : Text.ofNatPadded 2 e.natAbs ≠ [] := by
    refine List.ne_nil_of_length_pos ?_
    rw [Text.ofNatPadded, List.length_append, hLength]
    omega
  refine ⟨⟨'e', some (e < 0), Text.ofNatPadded 2 e.natAbs, .inl rfl,
    Text.all_ofNatPadded 2 e.natAbs, hFilled⟩, ?_, ?_⟩
  · unfold Exponent.source exponentText
    by_cases hNegative : e < 0 <;> simp [Exponent.signSource, hNegative]
  · unfold Exponent.value Reading.signedValue
    simp only [Option.getD_some, decide_eq_true_eq, digitsValue_ofNatPadded]
    split
    · omega
    · omega

/-- Digits with a point behind the first, and an exponent. -/
def scientific (top : Int) : Text → Text
  | [] => []
  | [c] => c :: 'e' :: exponentText top
  | c :: rest => c :: '.' :: rest ++ 'e' :: exponentText top

section
variable {text : Text} {m : Nat} (hDigits : text.all isAsciiDigit) (hValue : digitsValue text = m)
  (hFilled : text ≠ [])
include hDigits hValue

/-- A point with zeros between it and the digits. -/
theorem exists_numeral_small (zeros : Nat) :
    ∃ x : Numeral, '0' :: '.' :: List.replicate zeros '0' ++ text = x.source ∧
      x.value = m * 10 ^ (-((zeros + text.length : Nat) : Int)) ∧ x.exponent = none := by
  have hFraction : (List.replicate zeros '0' ++ text).all isAsciiDigit := by
    rw [List.all_append, hDigits, Text.all_replicate_zero]
    rfl
  have hNumber : digitsValue ('0' :: (List.replicate zeros '0' ++ text)) = m := by
    rw [← List.cons_append, ← List.replicate_succ, digitsValue_append, digitsValue_replicate_zero,
      Nat.zero_mul, Nat.zero_add, hValue]
  refine ⟨⟨['0'], some (List.replicate zeros '0' ++ text), none, rfl, hFraction, by simp⟩, ?_, ?_,
    rfl⟩
  · simp [Numeral.source, Numeral.fractionSource, Numeral.exponentSource]
  · simp [Numeral.value_eq, Numeral.digits, Numeral.power, Numeral.places, hNumber]

include hFilled

/-- Digits with zeros behind them, and perhaps with an empty fraction. -/
theorem exists_numeral_whole (zeros : Nat) (keepsPoint : Bool) :
    ∃ x : Numeral, text ++ List.replicate zeros '0' ++ (if keepsPoint then ['.', '0'] else []) =
      x.source ∧ x.value = m * 10 ^ (zeros : Int) ∧ x.exponent = none := by
  have hWhole : (text ++ List.replicate zeros '0').all isAsciiDigit := by
    rw [List.all_append, hDigits, Text.all_replicate_zero]
    rfl
  have hNumber : digitsValue (text ++ List.replicate zeros '0') = m * 10 ^ zeros := by
    rw [digitsValue_append, hValue, digitsValue_replicate_zero, List.length_replicate, Nat.add_zero]
  cases keepsPoint with
  | false =>
      refine ⟨⟨text ++ List.replicate zeros '0', none, none, hWhole, rfl, by simp [hFilled]⟩,
        ?_, ?_, rfl⟩
      · simp [Numeral.source, Numeral.fractionSource, Numeral.exponentSource]
      · simp [Numeral.value_eq, Numeral.digits, Numeral.power, Numeral.places, hNumber]
  | true =>
      refine ⟨⟨text ++ List.replicate zeros '0', some ['0'], none, hWhole, rfl, by simp⟩,
        ?_, ?_, rfl⟩
      · simp [Numeral.source, Numeral.fractionSource, Numeral.exponentSource]
      · have hZero : digitsValue (text ++ List.replicate zeros '0' ++ ['0']) = m * 10 ^ zeros * 10 := by
          rw [digitsValue_append, hNumber]
          rfl
        simp only [Numeral.value_eq, Numeral.digits, Numeral.power, Numeral.places, Option.getD_some,
          Option.elim_none, hZero, List.length_singleton]
        push_cast
        field_simp
        simp

/-- Digits with a point between them. -/
theorem exists_numeral_point {k places : Nat} (hLength : text.length = k + places) :
    ∃ x : Numeral, text.take k ++ '.' :: text.drop k = x.source ∧
      x.value = m * 10 ^ (-(places : Int)) ∧ x.exponent = none := by
  have hAll : ∀ c ∈ text, isAsciiDigit c := List.all_eq_true.1 hDigits
  refine ⟨⟨text.take k, some (text.drop k), none, ?_, ?_, by simpa using hFilled⟩, ?_, ?_, rfl⟩
  · exact List.all_eq_true.2 fun c hc => hAll c (List.mem_of_mem_take hc)
  · exact List.all_eq_true.2 fun c hc => hAll c (List.mem_of_mem_drop hc)
  · simp [Numeral.source, Numeral.fractionSource, Numeral.exponentSource]
  · simp [Numeral.value_eq, Numeral.digits, Numeral.power, Numeral.places, hValue, hLength]

theorem exists_numeral_scientific (top : Int) :
    ∃ x : Numeral, scientific top text = x.source ∧
      x.value = m * 10 ^ (top - text.length + 1) := by
  have hAll : ∀ c ∈ text, isAsciiDigit c := List.all_eq_true.1 hDigits
  obtain ⟨e, hExponent, hTop⟩ := exists_exponent top
  match text, hFilled with
  | [c], _ =>
      refine ⟨⟨[c], none, some e, hDigits, rfl, by simp⟩, ?_, ?_⟩
      · simp [scientific, Numeral.source, Numeral.fractionSource, Numeral.exponentSource, hExponent]
      · simp [Numeral.value_eq, Numeral.digits, Numeral.power, Numeral.places, hValue,
          hTop]
  | c :: d :: rest, _ =>
      have hFirst : [c].all isAsciiDigit := by simpa using hAll c List.mem_cons_self
      have hRest : (d :: rest).all isAsciiDigit :=
        List.all_eq_true.2 fun b hb => hAll b (List.mem_cons_of_mem c hb)
      refine ⟨⟨[c], some (d :: rest), some e, hFirst, hRest, by simp⟩, ?_, ?_⟩
      · simp [scientific, Numeral.source, Numeral.fractionSource, Numeral.exponentSource, hExponent]
      · have hPower : top - ((c :: d :: rest).length : Int) + 1 = top - (d :: rest).length := by
          simp only [List.length_cons]
          omega
        rw [hPower]
        simp [Numeral.value_eq, Numeral.digits, Numeral.power, Numeral.places, hValue,
          hTop]

end

/-- What a layout writes is a numeral of the decimal, without an exponent in the range that is
written positionally. -/
theorem exists_numeral_layOut (layout : DecimalLayout) (digits : Nat) (e : Int) :
    ∃ x : Numeral, layOut layout digits e = x.source ∧ x.value = digits * 10 ^ e ∧
      (10 ^ layout.least ≤ x.value → x.value < 10 ^ layout.tooLarge → x.exponent = none) := by
  obtain ⟨k, hLength, hAbove, hBelow⟩ := Text.length_ofNat (stripZeros 400 digits).1
  have hStrip := stripZeros_spec 400 digits
  have hDigits := Text.all_ofNat (stripZeros 400 digits).1
  have hNumber := digitsValue_ofNat (stripZeros 400 digits).1
  unfold layOut
  generalize stripZeros 400 digits = stripped at *
  obtain ⟨m, zeros⟩ := stripped
  simp only at hStrip hDigits hNumber hLength hAbove hBelow
  have hFilled : Text.ofNat m ≠ [] := List.ne_nil_of_length_pos (by omega)
  have hDecimal : (digits : ℚ) * 10 ^ e = m * 10 ^ (e + zeros) := by
    rw [← hStrip, zpow_add₀ (by norm_num), zpow_natCast]
    push_cast
    ring
  rw [hDecimal]
  simp only
  split
  · split
    · next hWhole =>
        obtain ⟨x, hSource, hValue, hNone⟩ := exists_numeral_whole hDigits hNumber hFilled
          (e + zeros).toNat layout.keepsPoint
        rw [Int.toNat_of_nonneg hWhole] at hValue
        exact ⟨x, hSource, hValue, fun _ _ => hNone⟩
    · split
      · next hSmall hTop =>
          obtain ⟨places, hPlaces⟩ : ∃ places : Nat, e + zeros = -(places : Int) :=
            ⟨(-(e + zeros)).toNat, by omega⟩
          have hPoint : (Text.ofNat m).length =
              (e + zeros + (Text.ofNat m).length - 1).toNat + 1 + places := by omega
          obtain ⟨x, hSource, hValue, hNone⟩ :=
            exists_numeral_point hDigits hNumber hFilled hPoint
          exact ⟨x, hSource, hPlaces ▸ hValue, fun _ _ => hNone⟩
      · next hSmall hTop =>
          obtain ⟨x, hSource, hValue, hNone⟩ := exists_numeral_small hDigits hNumber
            (-(e + zeros + (Text.ofNat m).length - 1) - 1).toNat
          refine ⟨x, hSource, hValue.trans ?_, fun _ _ => hNone⟩
          congr 2
          omega
  · next hRange =>
      obtain ⟨x, hSource, hValue⟩ := exists_numeral_scientific hDigits hNumber hFilled
        (e + zeros + (Text.ofNat m).length - 1)
      have hLast : e + zeros + ((Text.ofNat m).length : Int) - 1 - (Text.ofNat m).length + 1 =
          e + zeros := by omega
      rw [hLast] at hValue
      refine ⟨x, hSource, hValue, fun hLeast hLarge => absurd ?_ hRange⟩
      rw [hValue] at hLeast hLarge
      have hm : m ≠ 0 := by
        rintro rfl
        rw [Nat.cast_zero, zero_mul] at hLeast
        exact absurd hLeast (not_le.2 (by positivity))
      -- The first digit decides the layout, and the bounds are powers of ten, so both agree.
      have hTop := hasTop_decimal (hBelow hm) hAbove (e + zeros)
      have hFirst := hTop.le_of_pow_le hLeast
      have hRest := hTop.lt_of_lt_pow hLarge
      omega

/-! ### Rounded texts -/

/-- The exact value of a finite number. -/
def value : Binary64 → ℚ
  | nan => 0
  | signed negative rank => if negative then -magnitude rank else magnitude rank

theorem below_iff_value_lt {c : Binary64} (hFinite : c.isFinite) (x : ℚ) :
    c.Below x ↔ c.value < x := by
  cases c with
  | nan => exact absurd hFinite Bool.false_ne_true
  | signed negative rank =>
      have hRank : rank < infiniteRank := of_decide_eq_true hFinite
      rw [Below, if_pos hRank, value]

theorem exists_numeral_zero : ∃ x : Numeral, x.source = ['0'] ∧ x.digits = 0 ∧ x.exponent = none :=
  ⟨⟨['0'], none, none, rfl, rfl, List.cons_ne_nil _ _⟩, rfl, by decide, rfl⟩

section
variable {c : Binary64} (hFinite : c.isFinite) (hNonneg : zero.le c)
include hFinite hNonneg

/-- A finite number that is not negative is the magnitude of a rank, perhaps a zero with a sign. -/
theorem exists_rank :
    ∃ negative rank, c = .signed negative rank ∧ rank < infiniteRank ∧ c.value = magnitude rank ∧
      (negative = true → rank = 0) := by
  cases c with
  | nan => exact absurd hFinite Bool.false_ne_true
  | signed negative rank =>
      refine ⟨negative, rank, rfl, of_decide_eq_true hFinite, ?_⟩
      cases negative with
      | false => exact ⟨rfl, nofun⟩
      | true =>
          have hPlace : (0 : Int) ≤ -(rank : Int) := of_decide_eq_true hNonneg
          obtain rfl : rank = 0 := by omega
          refine ⟨?_, fun _ => rfl⟩
          rw [value, if_pos rfl, magnitude_zero, neg_zero]

/-- A ceiling is shown as a numeral, of the ceiling rounded to six digits; only a zero can have a
sign in front. -/
theorem exists_numeral_toRoundedText :
    ∃ (negative : Bool) (x : Numeral),
      c.toRoundedText = (if negative then '-' :: x.source else x.source) ∧
      (negative = true → x.digits = 0) ∧ RoundsTo 6 c.value x.value ∧
      (10 ^ (-4 : Int) ≤ x.value → x.value < 10 ^ (6 : Int) → x.exponent = none) := by
  obtain ⟨negative, rank, rfl, hRank, hValue, hZero⟩ := exists_rank hFinite hNonneg
  rw [hValue]
  by_cases hFirst : rank = 0
  · subst hFirst
    obtain ⟨x, hSource, hDigits, hNone⟩ := exists_numeral_zero
    have hNumeral : x.value = 0 := by rw [Numeral.value_eq, hDigits, Nat.cast_zero, zero_mul]
    refine ⟨negative, x, ?_, fun _ => hDigits, .zero magnitude_zero hNumeral, fun _ _ => hNone⟩
    rw [hSource]
    rfl
  · obtain rfl : negative = false := by
      cases negative with
      | false => rfl
      | true => exact absurd (hZero rfl) hFirst
    obtain ⟨x, hSource, hNumeral, hPositional⟩ := exists_numeral_layOut roundedLayout
      (significant 6 rank).1 (significant 6 rank).2
    refine ⟨false, x, ?_, nofun, ?_, hPositional⟩
    · rw [toRoundedText, written]
      simp only [if_neg hFirst, if_pos hRank, hSource]
    · rw [hNumeral]
      exact roundsTo_significant 6 (Nat.pos_of_ne_zero hFirst)

end

end Composer.Binary64
