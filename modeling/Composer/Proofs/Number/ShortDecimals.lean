import Composer.Proofs.Number.Significant
import Mathlib.Algebra.Order.Archimedean.Basic

/-!
Decimals with few digits. A decimal of an ordinary size is rounded to a number of the format that is
very near to it, so near that rounding that number to six digits gives the decimal back when it has
no more (`Binary64.RoundsTo.eq_of_short`). And the number that a decimal is rounded to does not
depend on how the decimal is written (`Binary64.ofDecimal_eq_of_eq`).
-/

namespace Composer.Binary64

/-! ### How near the format comes -/

theorem magnitude_succ_le {rank : Nat} (h : binade ≤ rank) :
    magnitude (rank + 1) ≤ magnitude rank * (1 + 2 ^ (-52 : Int)) := by
  obtain ⟨e, m, hRank, hLast, hUnits⟩ := exists_units rank
  have hFirst : binade ≤ m := by
    rcases hUnits with rfl | hFirst
    · omega
    · exact hFirst
  have hNext : rank + 1 = e * binade + (m + 1) := by omega
  have hUnit : (0 : ℚ) < 2 ^ ((e : Int) - 1074) := by positivity
  have hStep : (1 : ℚ) ≤ m * 2 ^ (-52 : Int) := by
    have hFirst' : ((binade : Nat) : ℚ) ≤ m := by exact_mod_cast hFirst
    rw [zpow_neg, ← div_eq_mul_inv, one_le_div (by positivity)]
    norm_num [binade] at hFirst' ⊢
    exact hFirst'
  rw [hNext, hRank, magnitude_eq hLast.le (.inr hFirst), magnitude_eq hLast (.inr (by omega))]
  calc ((m + 1 : Nat) : ℚ) * 2 ^ ((e : Int) - 1074)
    _ = m * 2 ^ ((e : Int) - 1074) + 1 * 2 ^ ((e : Int) - 1074) := by push_cast; ring
    _ ≤ m * 2 ^ ((e : Int) - 1074) + m * 2 ^ (-52 : Int) * 2 ^ ((e : Int) - 1074) :=
      add_le_add_right (mul_le_mul_of_nonneg_right hStep hUnit.le) _
    _ = m * 2 ^ ((e : Int) - 1074) * (1 + 2 ^ (-52 : Int)) := by ring

theorem ten_pow_le_two_pow : (10 : ℚ) ^ (300 : Int) ≤ 2 ^ (1000 : Int) := by
  calc (10 : ℚ) ^ (300 : Int)
    _ = (10 ^ 3) ^ 100 := by rw [← pow_mul]; exact zpow_natCast 10 300
    _ ≤ (2 ^ 10) ^ 100 := by gcongr; norm_num
    _ = 2 ^ (1000 : Int) := by rw [← pow_mul]; exact (zpow_natCast 2 1000).symm

/-- The first magnitude with all its binary digits is far below an ordinary size. -/
theorem magnitude_binade_le : magnitude binade ≤ 10 ^ (-300 : Int) := by
  have hFirst : magnitude (0 * binade + binade) = (binade : Nat) * 2 ^ (((0 : Nat) : Int) - 1074) :=
    magnitude_eq (by decide) (.inl rfl)
  have hBinade : ((binade : Nat) : ℚ) = 2 ^ (52 : Int) := by norm_num [binade]
  rw [Nat.zero_mul, Nat.zero_add, hBinade, ← zpow_add₀ (by norm_num)] at hFirst
  rw [hFirst, zpow_neg]
  calc (2 : ℚ) ^ ((52 : Int) + (((0 : Nat) : Int) - 1074))
    _ ≤ 2 ^ (-1000 : Int) := zpow_le_zpow_right₀ (by norm_num) (by norm_num)
    _ = (2 ^ (1000 : Int))⁻¹ := zpow_neg 2 1000
    _ ≤ (10 ^ (300 : Int))⁻¹ := inv_anti₀ (by positivity) ten_pow_le_two_pow

/-- The last finite magnitude is far above an ordinary size. -/
theorem lt_magnitude_last : 10 ^ (300 : Int) < magnitude (infiniteRank - 1) := by
  have hPower : magnitude (2045 * binade + binade) =
      (binade : Nat) * 2 ^ (((2045 : Nat) : Int) - 1074) :=
    magnitude_eq (by decide) (.inr (Nat.le_refl _))
  have hBinade : ((binade : Nat) : ℚ) = 2 ^ (52 : Int) := by norm_num [binade]
  rw [hBinade, ← zpow_add₀ (by norm_num)] at hPower
  calc (10 : ℚ) ^ (300 : Int)
    _ ≤ 2 ^ (1000 : Int) := ten_pow_le_two_pow
    _ < 2 ^ ((52 : Int) + (((2045 : Nat) : Int) - 1074)) :=
      zpow_lt_zpow_right₀ (by norm_num) (by norm_num)
    _ = magnitude (2045 * binade + binade) := hPower.symm
    _ ≤ magnitude (infiniteRank - 1) := magnitude_strictMono.monotone (by decide)

/-- A number of an ordinary size is rounded to one that is very near to it. -/
theorem IsFaithful.abs_magnitude_sub_le {x : ℚ} {rank : Nat} (h : IsFaithful x rank)
    (hLow : 10 ^ (-300 : Int) ≤ x) (hHigh : x ≤ 10 ^ (300 : Int)) :
    |magnitude rank - x| ≤ x * 2 ^ (-52 : Int) := by
  have hPower : (0 : ℚ) < 2 ^ (-52 : Int) := by positivity
  have hPositive : 0 < x := lt_of_lt_of_le (by positivity) hLow
  have hNormal : binade ≤ rank :=
    h.ge_of_magnitude_le binade (by decide) (magnitude_binade_le.trans hLow)
  rcases le_total x (magnitude rank) with hUp | hDown
  · rw [abs_of_nonneg (sub_nonneg.2 hUp), sub_le_iff_le_add']
    -- The first of these magnitudes has no step below it, but it is not above an ordinary number.
    by_cases hFirst : rank = binade
    · have hSame : magnitude rank ≤ x := hFirst ▸ magnitude_binade_le.trans hLow
      have hProduct := mul_pos hPositive hPower
      linarith
    · obtain ⟨r, rfl⟩ : ∃ r, rank = r + 1 := ⟨rank - 1, by omega⟩
      have hBound := h.rank_le
      have hBelow : magnitude r < x := by
        by_contra hNot
        exact absurd (h.le_of_le_magnitude r (by omega) (not_lt.1 hNot)) (by omega)
      calc magnitude (r + 1)
        _ ≤ magnitude r * (1 + 2 ^ (-52 : Int)) := magnitude_succ_le (by omega)
        _ ≤ x * (1 + 2 ^ (-52 : Int)) := mul_le_mul_of_nonneg_right hBelow.le (by positivity)
        _ = x + x * 2 ^ (-52 : Int) := by ring
  · rw [abs_of_nonpos (sub_nonpos.2 hDown), neg_sub, sub_le_iff_le_add']
    have hLast : rank < infiniteRank - 1 :=
      magnitude_strictMono.lt_iff_lt.1 (hDown.trans_lt (hHigh.trans_lt lt_magnitude_last))
    have hAbove : x < magnitude (rank + 1) := by
      by_contra hNot
      exact absurd (h.ge_of_magnitude_le (rank + 1) (by omega) (not_lt.1 hNot)) (by omega)
    calc x
      _ ≤ magnitude (rank + 1) := hAbove.le
      _ ≤ magnitude rank * (1 + 2 ^ (-52 : Int)) := magnitude_succ_le hNormal
      _ = magnitude rank + magnitude rank * 2 ^ (-52 : Int) := by ring
      _ ≤ magnitude rank + x * 2 ^ (-52 : Int) :=
        add_le_add_right (mul_le_mul_of_nonneg_right hDown hPower.le) _

/-! ### Six digits -/

/-- A decimal with six digits at most is a whole number of the units in which a number very near to
it is rounded, for else it would be short of the first digit of that number. -/
theorem exists_units_of_short {x : ℚ} {digits : Nat} {e unit : Int} (hShort : digits < 10 ^ 6)
    (hLow : 10 ^ 5 * 10 ^ unit ≤ x) (hNear : x - digits * 10 ^ e ≤ digits * 10 ^ e / 10 ^ 15) :
    ∃ k : Nat, (digits : ℚ) * 10 ^ e = k * 10 ^ unit := by
  have hTen : (10 : ℚ) ≠ 0 := by norm_num
  by_cases hUnits : unit ≤ e
  · refine ⟨digits * 10 ^ (e - unit).toNat, ?_⟩
    rw [Nat.cast_mul, Nat.cast_pow, mul_assoc, Nat.cast_ofNat, ← zpow_natCast,
      Int.toNat_of_nonneg (by omega), ← zpow_add₀ hTen]
    congr 2
    ring
  · -- With its last digit below the unit the decimal would be too short to reach `10 ^ 5` units.
    exfalso
    have hPower : (10 : ℚ) ^ e * 10 ≤ 10 ^ unit := by
      rw [← zpow_add_one₀ hTen]
      exact zpow_le_zpow_right₀ (by norm_num) (by omega)
    have hDigits : (digits : ℚ) + 1 ≤ 10 ^ 6 := by exact_mod_cast hShort
    have hLast : (0 : ℚ) < 10 ^ e := by positivity
    generalize (10 : ℚ) ^ e = last at *
    generalize (10 : ℚ) ^ unit = unit at *
    have hProduct := mul_le_mul_of_nonneg_right hDigits hLast.le
    linarith

/-- A decimal with six digits at most is what a number very near to it is rounded to. -/
theorem RoundsTo.eq_of_short {x v : ℚ} {digits : Nat} {e : Int} (h : RoundsTo 6 x v)
    (hShort : digits < 10 ^ 6) (hPositive : (0 : ℚ) < digits * 10 ^ e)
    (hNear : |x - digits * 10 ^ e| ≤ digits * 10 ^ e / 10 ^ 15) :
    v = digits * 10 ^ e := by
  obtain ⟨hDown, hUp⟩ := abs_le.1 hNear
  cases h with
  | zero hx hv =>
      rw [hx] at hDown
      linarith
  | @digits top m hTop hNearest hv =>
      have hTen : (10 : ℚ) ≠ 0 := by norm_num
      generalize hIndex : top - ((6 : Nat) : Int) + 1 = unit at *
      obtain ⟨hLow, hHigh⟩ := hTop
      obtain rfl : top = 5 + unit := by omega
      have hNext : (10 : ℚ) ^ (5 + unit + 1) = 10 ^ 6 * 10 ^ unit := by
        rw [add_right_comm, zpow_add₀ hTen]
        rfl
      rw [zpow_add₀ hTen] at hLow
      rw [hNext] at hHigh
      obtain ⟨k, hk⟩ := exists_units_of_short hShort hLow hUp
      have hUnit : (0 : ℚ) < 10 ^ unit := by positivity
      rw [hk] at hDown hUp hPositive ⊢
      generalize (10 : ℚ) ^ unit = unit at *
      have hRatio : |x / unit - k| < 1 / 2 := by
        rw [abs_lt, lt_sub_iff_add_lt, sub_lt_iff_lt_add, lt_div_iff₀ hUnit, div_lt_iff₀ hUnit]
        constructor
        · linarith
        · linarith
      rw [hv, hNearest.eq_of_abs_lt hRatio]

/-! ### The value of a decimal -/

theorem nearest_roundScaled (n : Nat) {d : Nat} (hd : 0 < d) (e : Int) :
    Nearest (n / d / 2 ^ e) (roundScaled n d e) := by
  unfold roundScaled
  split
  · next hPower =>
      obtain ⟨k, rfl⟩ := Int.eq_ofNat_of_zero_le hPower
      have hRound := nearest_roundQuotient n (Nat.mul_pos hd (Nat.two_pow_pos k))
      simpa [div_div] using hRound
  · obtain ⟨k, rfl⟩ : ∃ k : Nat, e = -k := ⟨(-e).toNat, by omega⟩
    have hRound := nearest_roundQuotient (n * Nat.pow 2 k) hd
    simpa [div_div_eq_mul_div, mul_div_right_comm] using hRound

section
variable {n d : Nat} (hn : n ≠ 0) (hd : 0 < d)
include hn hd

theorem rankOfFraction_of_top {top : Int} (hLow : (2 : ℚ) ^ top ≤ n / d)
    (hHigh : (n : ℚ) / d < 2 ^ (top + 1)) :
    rankOfFraction n d = min ((max (top - 52) (-1074) + 1074).toNat * binade +
      roundScaled n d (max (top - 52) (-1074))) infiniteRank := by
  obtain ⟨hGuess, hAbove⟩ := guess_bounds hn hd.ne'
  have hTop : (if reaches n d ((Nat.log2 n : Int) - Nat.log2 d) then
      (Nat.log2 n : Int) - Nat.log2 d else (Nat.log2 n : Int) - Nat.log2 d - 1) = top := by
    have hUnique {t : Int} (hLow' : (2 : ℚ) ^ t ≤ n / d) (hHigh' : (n : ℚ) / d < 2 ^ (t + 1)) :
        t = top := by
      have hLess := (zpow_lt_zpow_iff_right₀ (one_lt_two (α := ℚ))).1 (hLow'.trans_lt hHigh)
      have hMore := (zpow_lt_zpow_iff_right₀ (one_lt_two (α := ℚ))).1 (hLow.trans_lt hHigh')
      omega
    split
    · next hReaches => exact hUnique ((reaches_iff n hd _).1 hReaches) hAbove
    · next hReaches =>
        rw [reaches_iff n hd, not_le] at hReaches
        exact hUnique hGuess (by rwa [sub_add_cancel])
  rw [rankOfFraction, if_neg hn]
  simp only [hTop]

end

/-- The rank depends on the value of a fraction alone. -/
theorem rankOfFraction_eq_of_div_eq {n d n' d' : Nat} (hd : 0 < d) (hd' : 0 < d')
    (h : (n : ℚ) / d = n' / d') : rankOfFraction n d = rankOfFraction n' d' := by
  have hDenominator : (d : ℚ) ≠ 0 := by exact_mod_cast hd.ne'
  have hDenominator' : (d' : ℚ) ≠ 0 := by exact_mod_cast hd'.ne'
  by_cases hn : n = 0
  · subst hn
    have hZero : n' = 0 := by
      rw [Nat.cast_zero, zero_div] at h
      exact_mod_cast (div_eq_zero_iff.1 h.symm).resolve_right hDenominator'
    rw [hZero, rankOfFraction, rankOfFraction, if_pos rfl, if_pos rfl]
  · have hn' : n' ≠ 0 := by
      rintro rfl
      rw [Nat.cast_zero, zero_div] at h
      exact hn (by exact_mod_cast (div_eq_zero_iff.1 h).resolve_right hDenominator)
    have hPositive : (0 : ℚ) < n / d := by positivity
    obtain ⟨top, hLow, hHigh⟩ := exists_mem_Ico_zpow hPositive one_lt_two
    rw [rankOfFraction_of_top hn hd hLow hHigh, rankOfFraction_of_top hn' hd' (h ▸ hLow) (h ▸ hHigh)]
    have hSame := (nearest_roundScaled n hd (max (top - 52) (-1074))).unique
      (h ▸ nearest_roundScaled n' hd' (max (top - 52) (-1074)))
    rw [hSame]

/-- A decimal of an ordinary size is rounded as a fraction. -/
theorem exists_ofFraction {digits : Nat} {e : Int} (hLow : (10 : ℚ) ^ (-300 : Int) ≤ digits * 10 ^ e)
    (hHigh : (digits : ℚ) * 10 ^ e ≤ 10 ^ (300 : Int)) (negative : Bool) :
    ∃ n d : Nat, 0 < d ∧ (n : ℚ) / d = digits * 10 ^ e ∧
      ofDecimal negative digits e = ofFraction negative n d := by
  have hTen : (10 : ℚ) ≠ 0 := by norm_num
  have hPower : (0 : ℚ) < 10 ^ e := by positivity
  have hDigits : digits ≠ 0 := by
    rintro rfl
    rw [Nat.cast_zero, zero_mul] at hLow
    exact absurd hLow (not_le.2 (by positivity))
  have hBelow : (tensBelow digits : Int) + e ≤ 300 := by
    have hTens : (10 : ℚ) ^ (tensBelow digits : Int) ≤ digits := by
      exact_mod_cast pow_tensBelow_le hDigits
    refine (zpow_le_zpow_iff_right₀ (show (1 : ℚ) < 10 by norm_num)).1 (le_trans ?_ hHigh)
    rw [zpow_add₀ hTen]
    exact mul_le_mul_of_nonneg_right hTens hPower.le
  have hAbove : -300 < (tensAbove digits : Int) + e := by
    have hTens : (digits : ℚ) < 10 ^ (tensAbove digits : Int) := by
      exact_mod_cast lt_pow_tensAbove digits
    refine (zpow_lt_zpow_iff_right₀ (show (1 : ℚ) < 10 by norm_num)).1 (hLow.trans_lt ?_)
    rw [zpow_add₀ hTen]
    exact mul_lt_mul_of_pos_right hTens hPower
  rw [ofDecimal, if_neg hDigits, if_neg (by omega), if_neg (by omega)]
  split
  · next hWhole =>
      obtain ⟨k, rfl⟩ := Int.eq_ofNat_of_zero_le hWhole
      exact ⟨digits * Nat.pow 10 k, 1, Nat.one_pos, by simp, rfl⟩
  · obtain ⟨k, rfl⟩ : ∃ k : Nat, e = -k := ⟨(-e).toNat, by omega⟩
    refine ⟨digits, Nat.pow 10 k, Nat.pow_pos (Nat.succ_pos 9), ?_, by simp⟩
    simp [div_eq_mul_inv]

/-- What a decimal of an ordinary size is rounded to depends on its value alone. -/
theorem ofDecimal_eq_of_eq {digits digits' : Nat} {e e' : Int}
    (hLow : (10 : ℚ) ^ (-300 : Int) ≤ digits * 10 ^ e)
    (hHigh : (digits : ℚ) * 10 ^ e ≤ 10 ^ (300 : Int))
    (h : (digits : ℚ) * 10 ^ e = digits' * 10 ^ e') (negative : Bool) :
    ofDecimal negative digits e = ofDecimal negative digits' e' := by
  obtain ⟨n, d, hd, hValue, hFraction⟩ := exists_ofFraction hLow hHigh negative
  obtain ⟨n', d', hd', hValue', hFraction'⟩ := exists_ofFraction (h ▸ hLow) (h ▸ hHigh) negative
  rw [hFraction, hFraction', ofFraction, ofFraction,
    rankOfFraction_eq_of_div_eq hd hd' (hValue.trans (h.trans hValue'.symm))]

end Composer.Binary64
