import Composer.Number.Decimal
import Composer.Proofs.Number.Rounding
import Composer.Proofs.Text.Digits

/-!
Rounding to significant digits. The power of ten of the first digit is found from the exact fraction
of a number, and as many digits from that on as are wanted make the nearest decimal of that length,
the even one of two that are equally near (`Binary64.roundsTo_significant`).
-/

namespace Composer

namespace Binary64

/-! ### The first digit -/

theorem fraction_pos (rank : Nat) : 0 < (fraction rank).2 := by
  unfold fraction
  simp only
  split
  · exact Nat.one_pos
  · exact Nat.pow_pos (Nat.succ_pos 1)

theorem fraction_div (rank : Nat) :
    ((fraction rank).1 : ℚ) / (fraction rank).2 = magnitude rank := by
  unfold fraction magnitude
  simp only
  split
  · next hPower =>
      obtain ⟨k, hk⟩ := Int.eq_ofNat_of_zero_le hPower
      simp [hk]
  · obtain ⟨k, hk⟩ : ∃ k : Nat, scale rank = -k := ⟨(-scale rank).toNat, by omega⟩
    simp [hk, div_eq_mul_inv]

/-- The power of ten of the first digit. -/
def HasTop (x : ℚ) (top : Int) : Prop := 10 ^ top ≤ x ∧ x < 10 ^ (top + 1)

theorem HasTop.le_of_pow_le {x : ℚ} {top k : Int} (h : HasTop x top) (hPower : 10 ^ k ≤ x) :
    k ≤ top :=
  Int.lt_add_one_iff.1 ((zpow_lt_zpow_iff_right₀ (by norm_num)).1 (hPower.trans_lt h.2))

theorem HasTop.lt_of_lt_pow {x : ℚ} {top k : Int} (h : HasTop x top) (hPower : x < 10 ^ k) :
    top < k :=
  (zpow_lt_zpow_iff_right₀ (by norm_num)).1 (h.1.trans_lt hPower)

/-- A decimal has its top where the first of its digits is. -/
theorem hasTop_decimal {m k : Nat} (hLow : 10 ^ k ≤ m) (hHigh : m < 10 ^ (k + 1)) (e : Int) :
    HasTop (m * 10 ^ e) (k + e) := by
  have hTen : (10 : ℚ) ≠ 0 := by norm_num
  have hUnit : (0 : ℚ) < 10 ^ e := by positivity
  have hLow' : (10 : ℚ) ^ k ≤ m := by exact_mod_cast hLow
  have hHigh' : (m : ℚ) < 10 ^ (k + 1) := by exact_mod_cast hHigh
  have hNext : (k : Int) + e + 1 = (k + 1 : Nat) + e := by omega
  rw [HasTop, hNext, zpow_add₀ hTen k e, zpow_add₀ hTen (k + 1 : Nat) e, zpow_natCast,
    zpow_natCast]
  exact ⟨mul_le_mul_of_nonneg_right hLow' hUnit.le, mul_lt_mul_of_pos_right hHigh' hUnit⟩

theorem below_spec {d fuel steps m : Nat} (hBefore : m < 10 * d) (hReached : d ≤ m * 10 ^ fuel) :
    ∃ k, decimalTop.below d fuel steps m = -((steps + k : Nat) : Int) ∧ d ≤ m * 10 ^ k ∧
      m * 10 ^ k < 10 * d := by
  induction fuel generalizing steps m with
  | zero => exact ⟨0, rfl, hReached, by simpa using hBefore⟩
  | succ fuel ih =>
      unfold decimalTop.below
      split
      · next hHere => exact ⟨0, rfl, by simpa using hHere, by simpa using hBefore⟩
      · next hFurther =>
          have hReached' : d ≤ 10 * m * 10 ^ fuel := by
            rw [Nat.pow_succ] at hReached
            linarith
          obtain ⟨k, hTop, hLow, hHigh⟩ := @ih (steps + 1) (10 * m) (by omega) hReached'
          refine ⟨k + 1, ?_, ?_, ?_⟩
          · rw [hTop]
            congr 2
            omega
          · rw [Nat.pow_succ]
            linarith
          · rw [Nat.pow_succ]
            linarith

theorem hasTop_decimalTop {fuel n d : Nat} (hd : 0 < d)
    (hReached : d ≤ n * 10 ^ (fuel + 1)) : HasTop (n / d) (decimalTop fuel n d) := by
  have hPositive : (0 : ℚ) < d := by exact_mod_cast hd
  unfold decimalTop HasTop
  split
  · next hWhole =>
      obtain ⟨k, hLength, hAbove, hBelow⟩ := Text.length_ofNat (n / d)
      have hQuotient : n / d ≠ 0 := (Nat.div_pos hWhole hd).ne'
      have hLow : d * 10 ^ k ≤ n := by
        calc d * 10 ^ k
          _ ≤ d * (n / d) := Nat.mul_le_mul_left d (hBelow hQuotient)
          _ ≤ n := Nat.mul_div_le n d
      have hHigh : n < 10 ^ (k + 1) * d := (Nat.div_lt_iff_lt_mul hd).1 hAbove
      rw [hLength, le_div_iff₀ hPositive, div_lt_iff₀ hPositive]
      have hTop : ((k + 1 : Nat) : Int) - 1 = k := by omega
      rw [hTop]
      constructor
      · rw [zpow_natCast]
        exact_mod_cast (Nat.mul_comm d _ ▸ hLow)
      · exact_mod_cast hHigh
  · next hSmall =>
      have hReached' : d ≤ 10 * n * 10 ^ fuel := by
        rw [Nat.pow_succ] at hReached
        linarith
      obtain ⟨k, hTop, hLow, hHigh⟩ := @below_spec d fuel 1 (10 * n) (by omega) hReached'
      have hNext : -((1 + k : Nat) : Int) + 1 = -k := by omega
      have hLow' : (d : ℚ) ≤ 10 * n * 10 ^ k := by exact_mod_cast hLow
      have hHigh' : (10 * n * 10 ^ k : ℚ) < 10 * d := by exact_mod_cast hHigh
      have hPower : (0 : ℚ) < 10 ^ k := by positivity
      rw [hTop, hNext, le_div_iff₀ hPositive, div_lt_iff₀ hPositive, zpow_neg, zpow_neg,
        zpow_natCast, zpow_natCast, Nat.add_comm, pow_succ]
      constructor
      · rw [inv_mul_le_iff₀ (by positivity)]
        linarith
      · rw [lt_inv_mul_iff₀ (by positivity)]
        linarith

/-! ### The nearest decimal -/

/-- A whole number nearest to `q`, the even one of two. -/
structure Nearest (q : ℚ) (m : Nat) : Prop where
  near : |(m : ℚ) - q| ≤ 1 / 2
  even_of_tie : |(m : ℚ) - q| = 1 / 2 → Even m

theorem Nearest.eq_of_abs_lt {q : ℚ} {m k : Nat} (h : Nearest q m) (hNear : |q - k| < 1 / 2) :
    m = k := by
  have hSame : |(m : ℚ) - k| < 1 := by
    calc |(m : ℚ) - k|
      _ ≤ |(m : ℚ) - q| + |q - k| := abs_sub_le _ _ _
      _ < 1 / 2 + 1 / 2 := add_lt_add_of_le_of_lt h.near hNear
      _ = 1 := by norm_num
  have hInt : |(m : Int) - k| < 1 := by exact_mod_cast hSame
  have hZero := Int.abs_lt_one_iff.1 hInt
  omega

theorem Nearest.unique {q : ℚ} {m k : Nat} (h : Nearest q m) (hOther : Nearest q k) : m = k := by
  have hBound : |(m : ℚ) - k| ≤ 1 := by
    calc |(m : ℚ) - k|
      _ ≤ |(m : ℚ) - q| + |q - k| := abs_sub_le _ _ _
      _ ≤ 1 / 2 + 1 / 2 := add_le_add h.near (abs_sub_comm q k ▸ hOther.near)
      _ = 1 := by norm_num
  have hInt : |(m : Int) - k| ≤ 1 := by exact_mod_cast hBound
  by_contra hNot
  obtain ⟨hLow, hHigh⟩ := abs_le.1 h.near
  obtain ⟨hLow', hHigh'⟩ := abs_le.1 hOther.near
  obtain ⟨hDown, hUp⟩ := abs_le.1 hInt
  -- neighbours can only be equally near, and one of them is odd
  obtain rfl | rfl : m = k + 1 ∨ k = m + 1 := by omega
  · push_cast at hLow hHigh
    have hEven := h.even_of_tie (by rw [abs_of_nonneg (by push_cast; linarith)]; push_cast; linarith)
    have hEven' := hOther.even_of_tie (by rw [abs_of_nonpos (by linarith)]; linarith)
    exact absurd hEven (Nat.not_even_iff_odd.2 hEven'.add_one)
  · push_cast at hLow' hHigh'
    have hEven := h.even_of_tie (by rw [abs_of_nonpos (by linarith)]; linarith)
    have hEven' := hOther.even_of_tie
      (by rw [abs_of_nonneg (by push_cast; linarith)]; push_cast; linarith)
    exact absurd hEven' (Nat.not_even_iff_odd.2 hEven.add_one)

theorem even_roundQuotient_of_tie {n d : Nat} (hd : 0 < d)
    (h : |(roundQuotient n d : ℚ) - n / d| = 1 / 2) : Even (roundQuotient n d) := by
  have hPositive : (0 : ℚ) < d := by exact_mod_cast hd
  have hRest : ((n % d : Nat) : ℚ) < d := by exact_mod_cast Nat.mod_lt n hd
  have hQuotient : (n : ℚ) / d = (n / d : Nat) + ((n % d : Nat) : ℚ) / d := by
    rw [div_eq_iff hPositive.ne', add_mul, div_mul_cancel₀ _ hPositive.ne', mul_comm]
    exact_mod_cast (Nat.div_add_mod n d).symm
  have hTie {offset : ℚ} (hOffset : offset = ((n % d : Nat) : ℚ) / d) (hHalf : offset = 1 / 2) :
      2 * (n % d) = d := by
    rw [hOffset, div_eq_div_iff hPositive.ne' two_ne_zero, one_mul] at hHalf
    exact_mod_cast (mul_comm _ _).trans hHalf
  rw [hQuotient] at h
  unfold roundQuotient at h ⊢
  simp only at h ⊢
  split at h
  · next hLess =>
      rw [sub_add_cancel_left, abs_neg, abs_of_nonneg (by positivity)] at h
      exact absurd (hTie rfl h) hLess.ne
  · split at h
    · next hMore =>
        have hOffset : ((n % d : Nat) : ℚ) / d ≤ 1 := (div_le_one hPositive).2 hRest.le
        push_cast at h
        rw [add_sub_add_left_eq_sub, abs_of_nonneg (sub_nonneg.2 hOffset)] at h
        exact absurd (hTie rfl (by linarith)) hMore.ne'
    · next hLess hMore =>
        rw [if_neg hLess, if_neg hMore]
        split
        · next hEven => exact Nat.even_iff.2 hEven
        · next hOdd => exact Nat.even_iff.2 (by omega)

theorem nearest_roundQuotient (n : Nat) {d : Nat} (hd : 0 < d) :
    Nearest (n / d) (roundQuotient n d) :=
  ⟨abs_roundQuotient_sub_le n hd, even_roundQuotient_of_tie hd⟩

theorem inUnitsOf_spec (n : Nat) {d : Nat} (hd : 0 < d) (e : Int) :
    0 < (inUnitsOf n d e).2 ∧ ((inUnitsOf n d e).1 : ℚ) / (inUnitsOf n d e).2 = n / d / 10 ^ e := by
  unfold inUnitsOf
  split
  · next hPower =>
      obtain ⟨k, rfl⟩ := Int.eq_ofNat_of_zero_le hPower
      refine ⟨Nat.mul_pos hd (Nat.pow_pos (Nat.succ_pos 9)), ?_⟩
      simp [div_div]
  · obtain ⟨k, rfl⟩ : ∃ k : Nat, e = -k := ⟨(-e).toNat, by omega⟩
    refine ⟨hd, ?_⟩
    simp [mul_div_right_comm]

/-- `v` is `x` rounded to so many significant digits. -/
inductive RoundsTo (count : Nat) (x v : ℚ) : Prop where
  | zero (hx : x = 0) (hv : v = 0)
  | digits {top : Int} {m : Nat} (hTop : HasTop x top)
      (hNearest : Nearest (x / 10 ^ (top - count + 1)) m) (hv : v = m * 10 ^ (top - count + 1))

/-- The decimal chosen for a number is the number rounded to as many digits. -/
theorem roundsTo_significant (count : Nat) {rank : Nat} (hPositive : 0 < rank) :
    RoundsTo count (magnitude rank)
      ((significant count rank).1 * 10 ^ (significant count rank).2) := by
  have hd := fraction_pos rank
  have hValue := fraction_div rank
  unfold significant
  generalize fraction rank = fraction at hd hValue
  obtain ⟨n, d⟩ := fraction
  simp only at hd hValue ⊢
  have hTop : HasTop (magnitude rank) (decimalTop 400 n d) := by
    rw [← hValue]
    refine hasTop_decimalTop hd ?_
    have hDenominator : (0 : ℚ) < d := by exact_mod_cast hd
    have hLeast : (10 : ℚ) ^ (-400 : Int) < n / d := by
      rw [hValue]
      exact pow_lt_magnitude_one.trans_le (magnitude_strictMono.monotone hPositive)
    rw [lt_div_iff₀ hDenominator, zpow_neg, inv_mul_lt_iff₀ (by positivity)] at hLeast
    have hScaled : d < 10 ^ 400 * n := by exact_mod_cast hLeast
    rw [Nat.mul_comm] at hScaled
    have hStep (k : Nat) : n * 10 ^ k ≤ n * 10 ^ (k + 1) :=
      Nat.mul_le_mul_left n (Nat.pow_le_pow_right (by decide) (Nat.le_succ k))
    exact hScaled.le.trans (hStep 400)
  obtain ⟨hUnit, hUnits⟩ := inUnitsOf_spec n hd (decimalTop 400 n d - count + 1)
  refine .digits hTop ?_ rfl
  have hNearest := nearest_roundQuotient (inUnitsOf n d (decimalTop 400 n d - count + 1)).1 hUnit
  rwa [hUnits, hValue] at hNearest

end Binary64

end Composer
