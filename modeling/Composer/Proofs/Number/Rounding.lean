import Composer.Number.Binary64
import Mathlib.Algebra.Order.Field.Power
import Mathlib.Algebra.Order.Field.Rat
import Mathlib.Tactic.FieldSimp
import Mathlib.Tactic.Linarith
import Mathlib.Tactic.Positivity
import Mathlib.Tactic.Ring

/-!
What decimals are rounded to. The magnitudes of the format ascend with their ranks, and a decimal is
rounded to one of its two neighbours among them (`Binary64.IsFaithful`). So a decimal that is not
rounded to a given number itself is on the same side of it before and after
(`Binary64.lt_ofDecimal_iff`), which is all that a comparison with a ceiling needs.
-/

namespace Composer.Binary64

/-! ### Magnitudes -/

/-- The exact magnitude of a finite rank; the sequence goes on in the same way behind those. -/
def magnitude (rank : Nat) : ℚ := units rank * 2 ^ scale rank

/-- A magnitude given by a number of units of a power of two. The least power has all numbers of
units, every other one those from `binade` on; the last of each is also the first of the next. -/
theorem magnitude_eq {e m : Nat} (hLast : m ≤ 2 * binade) (hFirst : e = 0 ∨ binade ≤ m) :
    magnitude (e * binade + m) = m * 2 ^ ((e : Int) - 1074) := by
  unfold magnitude units scale
  by_cases hSmall : e * binade + m < binade
  · obtain rfl : e = 0 := by
      rcases hFirst with rfl | hm
      · rfl
      · omega
    rw [if_pos hSmall, if_pos hSmall]
    simp
  · rw [if_neg hSmall, if_neg hSmall]
    by_cases hNext : m = 2 * binade
    · subst hNext
      have hUnits : (e * binade + 2 * binade) % binade = 0 := by simp only [binade]; omega
      have hScale : (e * binade + 2 * binade) / binade = e + 2 := by simp only [binade]; omega
      have hPower : ((e + 2 : Nat) : Int) - 1075 = (e : Int) - 1074 + 1 := by omega
      rw [hUnits, hScale, hPower, zpow_add_one₀ (by norm_num)]
      push_cast
      ring
    · have hUnits : (e * binade + m) % binade + binade = m := by
        simp only [binade] at *
        omega
      have hScale : (e * binade + m) / binade = e + 1 := by
        simp only [binade] at *
        omega
      have hPower : ((e + 1 : Nat) : Int) - 1075 = (e : Int) - 1074 := by omega
      rw [hUnits, hScale, hPower]

/-- Every rank is so many units of a power of two. -/
theorem exists_units (rank : Nat) :
    ∃ e m, rank = e * binade + m ∧ m < 2 * binade ∧ (e = 0 ∨ binade ≤ m) := by
  have hBinade : binade = 4503599627370496 := rfl
  refine ⟨rank / binade - 1, rank - (rank / binade - 1) * binade, ?_, ?_, ?_⟩ <;>
    · rw [hBinade]
      omega

theorem magnitude_strictMono : StrictMono magnitude := by
  refine strictMono_nat_of_lt_succ fun rank => ?_
  obtain ⟨e, m, hRank, hLast, hFirst⟩ := exists_units rank
  have hNext : rank + 1 = e * binade + (m + 1) := by omega
  rw [hNext, hRank, magnitude_eq hLast.le hFirst,
    magnitude_eq hLast (hFirst.imp id Nat.le_succ_of_le)]
  have hUnit : (0 : ℚ) < 2 ^ ((e : Int) - 1074) := by positivity
  push_cast
  linarith

theorem magnitude_zero : magnitude 0 = 0 := by
  have hZero : magnitude (0 * binade + 0) = (0 : Nat) * 2 ^ ((0 : Nat) - 1074 : Int) :=
    magnitude_eq (Nat.zero_le _) (.inl rfl)
  simpa using hZero

theorem magnitude_one : magnitude 1 = 2 ^ (-1074 : Int) := by
  have hOne : magnitude (0 * binade + 1) = (1 : Nat) * 2 ^ ((0 : Nat) - 1074 : Int) :=
    magnitude_eq (by decide) (.inl rfl)
  simpa using hOne

theorem magnitude_infiniteRank : magnitude infiniteRank = 2 ^ (1024 : Int) := by
  have hRank : infiniteRank = 2046 * binade + binade := by decide
  have hBinade : ((binade : Nat) : ℚ) = 2 ^ (52 : Int) := by norm_num [binade]
  rw [hRank, magnitude_eq (by decide) (.inr (Nat.le_refl _)), hBinade,
    ← zpow_add₀ (by norm_num)]
  norm_num

/-! ### Rounding a fraction -/

/-- A quotient is off by half at most. -/
theorem abs_roundQuotient_sub_le (n : Nat) {d : Nat} (hd : 0 < d) :
    |(roundQuotient n d : ℚ) - n / d| ≤ 1 / 2 := by
  have hDivide := Nat.div_add_mod n d
  have hRest := Nat.mod_lt n hd
  have hOff : 2 * (d * roundQuotient n d) ≤ 2 * n + d ∧ 2 * n ≤ 2 * (d * roundQuotient n d) + d := by
    unfold roundQuotient
    simp only
    generalize n / d = q at hDivide
    split
    · omega
    · split
      · rw [Nat.mul_succ]
        omega
      · split
        · omega
        · rw [Nat.mul_succ]
          omega
  have hPositive : (0 : ℚ) < d := by exact_mod_cast hd
  have hAbove : 2 * (d * roundQuotient n d : ℚ) ≤ 2 * n + d := by exact_mod_cast hOff.1
  have hBelow : (2 * n : ℚ) ≤ 2 * (d * roundQuotient n d) + d := by exact_mod_cast hOff.2
  have hValue : (d : ℚ) * (n / d) = n := mul_div_cancel₀ _ hPositive.ne'
  rw [abs_le]
  constructor
  · refine le_of_mul_le_mul_left ?_ hPositive
    linarith
  · refine le_of_mul_le_mul_left ?_ hPositive
    linarith

section
variable (n : Nat) {d : Nat} (hd : 0 < d) (e : Int)
include hd

theorem abs_roundScaled_sub_le :
    |(roundScaled n d e : ℚ) - n / d / 2 ^ e| ≤ 1 / 2 := by
  unfold roundScaled
  split
  · next hPower =>
      obtain ⟨k, rfl⟩ := Int.eq_ofNat_of_zero_le hPower
      have hRound := abs_roundQuotient_sub_le n (Nat.mul_pos hd (Nat.two_pow_pos k))
      simpa [div_div] using hRound
  · next hPower =>
      obtain ⟨k, rfl⟩ : ∃ k : Nat, e = -k := ⟨(-e).toNat, by omega⟩
      have hRound := abs_roundQuotient_sub_le (n * Nat.pow 2 k) hd
      simpa [div_div_eq_mul_div, mul_div_right_comm] using hRound

theorem reaches_iff : reaches n d e ↔ (2 : ℚ) ^ e ≤ n / d := by
  have hPositive : (0 : ℚ) < d := by exact_mod_cast hd
  rw [le_div_iff₀ hPositive]
  unfold reaches
  split
  · next hPower =>
      obtain ⟨k, rfl⟩ := Int.eq_ofNat_of_zero_le hPower
      simp only [Int.toNat_natCast, decide_eq_true_eq, Nat.pow_eq, zpow_natCast]
      rw [mul_comm]
      exact_mod_cast Iff.rfl
  · next hPower =>
      obtain ⟨k, rfl⟩ : ∃ k : Nat, e = -k := ⟨(-e).toNat, by omega⟩
      have hUnit : (0 : ℚ) < 2 ^ k := by positivity
      simp only [neg_neg, Int.toNat_natCast, decide_eq_true_eq, Nat.pow_eq, zpow_neg, zpow_natCast]
      rw [← div_eq_inv_mul, div_le_iff₀ hUnit]
      exact_mod_cast Iff.rfl

end

/-- The greatest power of two in a fraction is found from the lengths of its parts, up to one. -/
theorem guess_bounds {n d : Nat} (hn : n ≠ 0) (hd : d ≠ 0) :
    (2 : ℚ) ^ ((Nat.log2 n : Int) - Nat.log2 d - 1) ≤ n / d ∧
      (n : ℚ) / d < 2 ^ ((Nat.log2 n : Int) - Nat.log2 d + 1) := by
  have hTwo : (2 : ℚ) ≠ 0 := by norm_num
  have hPositive : (0 : ℚ) < d := by exact_mod_cast Nat.pos_of_ne_zero hd
  have hnLow : (2 : ℚ) ^ (Nat.log2 n : Int) ≤ n := by exact_mod_cast Nat.log2_self_le hn
  have hnHigh : (n : ℚ) < 2 ^ ((Nat.log2 n : Int) + 1) := by exact_mod_cast Nat.lt_log2_self
  have hdLow : (2 : ℚ) ^ (Nat.log2 d : Int) ≤ d := by exact_mod_cast Nat.log2_self_le hd
  have hdHigh : (d : ℚ) < 2 ^ ((Nat.log2 d : Int) + 1) := by exact_mod_cast Nat.lt_log2_self
  constructor
  · calc (2 : ℚ) ^ ((Nat.log2 n : Int) - Nat.log2 d - 1)
      _ = 2 ^ (Nat.log2 n : Int) / 2 ^ ((Nat.log2 d : Int) + 1) := by
        rw [← zpow_sub₀ hTwo, sub_sub]
      _ ≤ n / d := div_le_div₀ (Nat.cast_nonneg n) hnLow hPositive hdHigh.le
  · calc (n : ℚ) / d
      _ < 2 ^ ((Nat.log2 n : Int) + 1) / 2 ^ (Nat.log2 d : Int) :=
        div_lt_div₀ hnHigh hdLow (by positivity) (by positivity)
      _ = 2 ^ ((Nat.log2 n : Int) - Nat.log2 d + 1) := by
        rw [← zpow_sub₀ hTwo]
        congr 1
        ring

/-- A number rounded to `m` units of a power of two that leaves it fifty-three binary digits, or
fewer when the power is the least of the format. -/
structure Rounded (x : ℚ) (e m : Nat) : Prop where
  near : |(m : ℚ) - x / 2 ^ ((e : Int) - 1074)| ≤ 1 / 2
  below : x < 2 * binade * 2 ^ ((e : Int) - 1074)
  above : e = 0 ∨ binade * 2 ^ ((e : Int) - 1074) ≤ x

theorem exists_rounded {n d : Nat} (hn : n ≠ 0) (hd : 0 < d) :
    ∃ e m, Rounded (n / d) e m ∧ rankOfFraction n d = min (e * binade + m) infiniteRank := by
  have hBinade : ((binade : Nat) : ℚ) = 2 ^ (52 : Int) := by norm_num [binade]
  have hTwo : (2 : ℚ) ≠ 0 := by norm_num
  obtain ⟨hGuess, hAbove⟩ := guess_bounds hn hd.ne'
  obtain ⟨top, hTop, hLow, hHigh⟩ : ∃ top : Int,
      top = (if reaches n d ((Nat.log2 n : Int) - Nat.log2 d) then (Nat.log2 n : Int) - Nat.log2 d
        else (Nat.log2 n : Int) - Nat.log2 d - 1) ∧
      (2 : ℚ) ^ top ≤ n / d ∧ (n : ℚ) / d < 2 ^ (top + 1) := by
    refine ⟨_, rfl, ?_⟩
    split
    · next hReaches => exact ⟨(reaches_iff n hd _).1 hReaches, hAbove⟩
    · next hReaches =>
        rw [reaches_iff n hd, not_le] at hReaches
        rw [sub_add_cancel]
        exact ⟨hGuess, hReaches⟩
  obtain ⟨e, hUnit⟩ : ∃ e : Nat, max (top - 52) (-1074) = (e : Int) - 1074 :=
    ⟨(max (top - 52) (-1074) + 1074).toNat, by omega⟩
  have hIndex : ((e : Int) - 1074 + 1074).toNat = e := by omega
  refine ⟨e, roundScaled n d ((e : Int) - 1074), ⟨abs_roundScaled_sub_le n hd _, ?_, ?_⟩, ?_⟩
  · calc (n : ℚ) / d
      _ < 2 ^ (top + 1) := hHigh
      _ ≤ 2 ^ ((e : Int) - 1074 + 53) := zpow_le_zpow_right₀ (by norm_num) (by omega)
      _ = 2 * binade * 2 ^ ((e : Int) - 1074) := by
        rw [zpow_add₀ hTwo, hBinade]
        ring
  · by_cases hLeast : e = 0
    · exact .inl hLeast
    · refine .inr ?_
      calc (binade : ℚ) * 2 ^ ((e : Int) - 1074)
        _ = 2 ^ top := by
          rw [hBinade, ← zpow_add₀ hTwo]
          congr 1
          omega
        _ ≤ n / d := hLow
  · rw [rankOfFraction, if_neg hn]
    simp only [← hTop, hUnit, hIndex]

/-- A rank whose magnitude is one of the two neighbours of `x` among the magnitudes of the format,
and `x` itself when it is one of them. -/
structure IsFaithful (x : ℚ) (rank : Nat) : Prop where
  rank_le : rank ≤ infiniteRank
  le_of_le_magnitude : ∀ r < infiniteRank, x ≤ magnitude r → rank ≤ r
  ge_of_magnitude_le : ∀ r < infiniteRank, magnitude r ≤ x → r ≤ rank

namespace Rounded

variable {x : ℚ} {e m : Nat} (h : Rounded x e m)
include h

theorem le_last : m ≤ 2 * binade := by
  have hUnit : (0 : ℚ) < 2 ^ ((e : Int) - 1074) := by positivity
  have hQuotient : x / 2 ^ ((e : Int) - 1074) < 2 * binade := (div_lt_iff₀ hUnit).2 h.below
  have hNear := (abs_le.1 h.near).2
  have hLess : (m : ℚ) < (2 * binade + 1 : Nat) := by
    push_cast
    linarith
  exact Nat.le_of_lt_succ (by exact_mod_cast hLess)

theorem first_le : e = 0 ∨ binade ≤ m := by
  refine h.above.imp id fun hAbove => ?_
  have hUnit : (0 : ℚ) < 2 ^ ((e : Int) - 1074) := by positivity
  have hQuotient : (binade : ℚ) ≤ x / 2 ^ ((e : Int) - 1074) := (le_div_iff₀ hUnit).2 hAbove
  have hNear := (abs_le.1 h.near).1
  have hLess : (binade : ℚ) < (m + 1 : Nat) := by
    push_cast
    linarith
  exact Nat.le_of_lt_succ (by exact_mod_cast hLess)

/-- Rounding goes to a neighbour: what is between the number and the magnitude that it is rounded
to would be nearer. -/
theorem isFaithful : IsFaithful x (min (e * binade + m) infiniteRank) := by
  have hUnit : (0 : ℚ) < 2 ^ ((e : Int) - 1074) := by positivity
  have hValue : x / 2 ^ ((e : Int) - 1074) * 2 ^ ((e : Int) - 1074) = x :=
    div_mul_cancel₀ x hUnit.ne'
  have hNear := abs_le.1 h.near
  refine ⟨Nat.min_le_right _ _, fun r _ hUp => ?_, fun r hFinite hDown => ?_⟩
  · by_contra hLess
    have hRank : r < e * binade + m := by omega
    by_cases hFirst : e ≠ 0 ∧ m = binade
    · -- the first magnitude of its power, with its predecessor at half the distance
      obtain ⟨he, rfl⟩ := hFirst
      have hBelow := magnitude_strictMono hRank
      rw [magnitude_eq h.le_last h.first_le] at hBelow
      have hAbove := h.above.resolve_left he
      linarith
    · obtain ⟨k, rfl⟩ : ∃ k, m = k + 1 := by
        refine Nat.exists_eq_succ_of_ne_zero ?_
        rintro rfl
        have hBinade : 0 < binade := by decide
        have hFirst := h.first_le
        rcases hFirst with rfl | hFirst
        · omega
        · omega
      have hStep : magnitude r ≤ magnitude (e * binade + k) :=
        magnitude_strictMono.monotone (by omega)
      have hLast := h.le_last
      have hBefore : e = 0 ∨ binade ≤ k := by
        rcases h.first_le with he | hm
        · exact .inl he
        · by_cases he : e = 0
          · exact .inl he
          · exact .inr (Nat.le_of_lt_succ (lt_of_le_of_ne hm fun hSame => hFirst ⟨he, hSame.symm⟩))
      rw [magnitude_eq (by omega) hBefore] at hStep
      have hShort : (k : ℚ) < x / 2 ^ ((e : Int) - 1074) := by
        push_cast at hNear
        linarith
      have hProduct := mul_lt_mul_of_pos_right hShort hUnit
      linarith
  · refine Nat.le_min.2 ⟨?_, hFinite.le⟩
    by_contra hLess
    rw [Nat.not_le] at hLess
    by_cases hLast : m = 2 * binade
    · have hAbove := magnitude_strictMono hLess
      rw [magnitude_eq h.le_last h.first_le, hLast] at hAbove
      have hBelow := h.below
      push_cast at hAbove
      linarith
    · have hStep : magnitude (e * binade + (m + 1)) ≤ magnitude r :=
        magnitude_strictMono.monotone hLess
      have hFits := h.le_last
      rw [magnitude_eq (by omega) (h.first_le.imp id Nat.le_succ_of_le)] at hStep
      have hLong : x / 2 ^ ((e : Int) - 1074) < (m + 1 : Nat) := by
        push_cast
        linarith
      have hProduct := mul_lt_mul_of_pos_right hLong hUnit
      linarith

end Rounded

theorem isFaithful_rankOfFraction (n : Nat) {d : Nat} (hd : 0 < d) :
    IsFaithful (n / d) (rankOfFraction n d) := by
  by_cases hn : n = 0
  · subst hn
    have hRank : rankOfFraction 0 d = 0 := rfl
    rw [hRank, Nat.cast_zero, zero_div]
    refine ⟨Nat.zero_le _, fun r _ _ => Nat.zero_le r, fun r _ hDown => ?_⟩
    rw [← magnitude_zero] at hDown
    exact magnitude_strictMono.le_iff_le.1 hDown
  · obtain ⟨e, m, hRounded, hRank⟩ := exists_rounded hn hd
    rw [hRank]
    exact hRounded.isFaithful

/-! ### Rounding a decimal -/

theorem pow_tensBelow_le {n : Nat} (hn : n ≠ 0) : 10 ^ tensBelow n ≤ n := by
  have hTens : 196 * tensBelow n ≤ 59 * Nat.log2 n := by
    unfold tensBelow
    omega
  have hPower : (10 ^ tensBelow n) ^ 59 ≤ (2 ^ Nat.log2 n) ^ 59 := by
    calc (10 ^ tensBelow n) ^ 59
      _ = (10 ^ 59) ^ tensBelow n := by rw [← pow_mul, ← pow_mul, mul_comm]
      _ ≤ (2 ^ 196) ^ tensBelow n := Nat.pow_le_pow_left (by norm_num) _
      _ = 2 ^ (196 * tensBelow n) := by rw [← pow_mul]
      _ ≤ 2 ^ (59 * Nat.log2 n) := Nat.pow_le_pow_right (by norm_num) hTens
      _ = (2 ^ Nat.log2 n) ^ 59 := by rw [← pow_mul, mul_comm]
  exact ((Nat.pow_le_pow_iff_left (by norm_num)).1 hPower).trans (Nat.log2_self_le hn)

theorem lt_pow_tensAbove (n : Nat) : n < 10 ^ tensAbove n := by
  have hTens : 28 * (Nat.log2 n + 1) ≤ 93 * tensAbove n := by
    unfold tensAbove
    omega
  have hPower : (2 ^ (Nat.log2 n + 1)) ^ 93 ≤ (10 ^ tensAbove n) ^ 93 := by
    calc (2 ^ (Nat.log2 n + 1)) ^ 93
      _ = (2 ^ 93) ^ (Nat.log2 n + 1) := by rw [← pow_mul, ← pow_mul, mul_comm]
      _ ≤ (10 ^ 28) ^ (Nat.log2 n + 1) := Nat.pow_le_pow_left (by norm_num) _
      _ = 10 ^ (28 * (Nat.log2 n + 1)) := by rw [← pow_mul]
      _ ≤ 10 ^ (93 * tensAbove n) := Nat.pow_le_pow_right (by norm_num) hTens
      _ = (10 ^ tensAbove n) ^ 93 := by rw [← pow_mul, mul_comm]
  exact Nat.lt_log2_self.trans_le ((Nat.pow_le_pow_iff_left (by norm_num)).1 hPower)

theorem isFaithful_infiniteRank {x : ℚ} (h : 10 ^ (400 : Int) ≤ x) :
    IsFaithful x infiniteRank := by
  have hGreat : magnitude infiniteRank < 10 ^ (400 : Int) := by
    rw [magnitude_infiniteRank]
    calc (2 : ℚ) ^ (1024 : Int)
      _ = (2 ^ 128) ^ 8 := by rw [← pow_mul]; exact zpow_natCast 2 1024
      _ < (10 ^ 50) ^ 8 := by gcongr; norm_num
      _ = 10 ^ (400 : Int) := by rw [← pow_mul]; exact (zpow_natCast 10 400).symm
  refine ⟨Nat.le_refl _, fun r hFinite hUp => ?_, fun r hFinite _ => hFinite.le⟩
  have hLess := magnitude_strictMono hFinite
  linarith

theorem pow_lt_magnitude_one : (10 : ℚ) ^ (-400 : Int) < magnitude 1 := by
  rw [magnitude_one, zpow_neg, zpow_neg, inv_lt_inv₀ (by positivity) (by positivity)]
  calc (2 : ℚ) ^ (1074 : Int)
    _ = (2 ^ 179) ^ 6 := by rw [← pow_mul]; exact zpow_natCast 2 1074
    _ < (10 ^ 66) ^ 6 := by gcongr; norm_num
    _ ≤ (10 ^ 80) ^ 5 := by
      rw [← pow_mul, ← pow_mul]
      exact pow_le_pow_right₀ (by norm_num) (by norm_num)
    _ = 10 ^ (400 : Int) := by rw [← pow_mul]; exact (zpow_natCast 10 400).symm

theorem isFaithful_zero {x : ℚ} (h : x < 10 ^ (-400 : Int)) : IsFaithful x 0 := by
  have hSmall := pow_lt_magnitude_one
  refine ⟨Nat.zero_le _, fun r _ _ => Nat.zero_le r, fun r _ hDown => ?_⟩
  by_contra hPositive
  have hLeast : magnitude 1 ≤ magnitude r := magnitude_strictMono.monotone (by omega)
  linarith

/-- Decimals are rounded to a neighbour, whatever their digits and their power of ten. -/
theorem exists_ofDecimal (negative : Bool) (digits : Nat) (exponent : Int) :
    ∃ rank, ofDecimal negative digits exponent = .signed negative rank ∧
      IsFaithful (digits * 10 ^ exponent) rank := by
  have hTen : (10 : ℚ) ≠ 0 := by norm_num
  have hPower : (0 : ℚ) < 10 ^ exponent := by positivity
  unfold ofDecimal
  split
  · next hDigits =>
      subst hDigits
      refine ⟨0, rfl, isFaithful_zero ?_⟩
      rw [Nat.cast_zero, zero_mul]
      positivity
  · next hDigits =>
      split
      · next hGreat =>
          refine ⟨infiniteRank, rfl, isFaithful_infiniteRank ?_⟩
          have hTens : (10 : ℚ) ^ (tensBelow digits : Int) ≤ digits := by
            exact_mod_cast pow_tensBelow_le hDigits
          calc (10 : ℚ) ^ (400 : Int)
            _ ≤ 10 ^ (tensBelow digits + exponent) :=
              zpow_le_zpow_right₀ (by norm_num) hGreat.le
            _ = 10 ^ (tensBelow digits : Int) * 10 ^ exponent := zpow_add₀ hTen _ _
            _ ≤ digits * 10 ^ exponent := mul_le_mul_of_nonneg_right hTens hPower.le
      · split
        · next hSmall =>
            refine ⟨0, rfl, isFaithful_zero ?_⟩
            have hTens : (digits : ℚ) < 10 ^ (tensAbove digits : Int) := by
              exact_mod_cast lt_pow_tensAbove digits
            calc (digits : ℚ) * 10 ^ exponent
              _ < 10 ^ (tensAbove digits : Int) * 10 ^ exponent :=
                mul_lt_mul_of_pos_right hTens hPower
              _ = 10 ^ (tensAbove digits + exponent) := (zpow_add₀ hTen _ _).symm
              _ ≤ 10 ^ (-400 : Int) := zpow_le_zpow_right₀ (by norm_num) hSmall.le
        · split
          · next hWhole =>
              obtain ⟨k, rfl⟩ := Int.eq_ofNat_of_zero_le hWhole
              refine ⟨_, rfl, ?_⟩
              simpa using isFaithful_rankOfFraction (digits * Nat.pow 10 k) Nat.one_pos
          · obtain ⟨k, rfl⟩ : ∃ k : Nat, exponent = -k := ⟨(-exponent).toNat, by omega⟩
            refine ⟨_, rfl, ?_⟩
            have hFaithful := isFaithful_rankOfFraction digits (Nat.pow_pos (n := k) (Nat.succ_pos 9))
            simpa [div_eq_mul_inv] using hFaithful

/-! ### Comparing -/

namespace IsFaithful

variable {x : ℚ} {rank : Nat} (h : IsFaithful x rank)
include h

theorem lt_rank_iff {r : Nat} (hFinite : r < infiniteRank) :
    r < rank ↔ magnitude r < x ∧ rank ≠ r := by
  constructor
  · intro hLess
    refine ⟨?_, hLess.ne'⟩
    by_contra hNot
    exact absurd (h.le_of_le_magnitude r hFinite (not_lt.1 hNot)) (Nat.not_le.2 hLess)
  · rintro ⟨hBelow, hOther⟩
    exact lt_of_le_of_ne (h.ge_of_magnitude_le r hFinite hBelow.le) hOther.symm

theorem rank_eq_zero (hx : x ≤ 0) : rank = 0 :=
  Nat.le_zero.1 (h.le_of_le_magnitude 0 (by decide) (hx.trans_eq magnitude_zero.symm))

end IsFaithful

/-- Whether a number of the format is less than `x`, as exact values. -/
def Below : Binary64 → ℚ → Prop
  | nan, _ => False
  | signed negative rank, x =>
    if rank < infiniteRank then (if negative then -magnitude rank else magnitude rank) < x
    else negative = true

/-- A decimal is found above a number exactly when it is above it and not rounded to it. -/
theorem lt_ofDecimal_iff (c : Binary64) (digits : Nat) (exponent : Int) :
    c.lt (.ofDecimal false digits exponent) ↔
      c.Below (digits * 10 ^ exponent) ∧
        (Binary64.ofDecimal false digits exponent).sameValue c = false := by
  obtain ⟨rank, hRank, hFaithful⟩ := exists_ofDecimal false digits exponent
  have hPositive : (0 : ℚ) ≤ digits * 10 ^ exponent := by positivity
  generalize (digits * 10 ^ exponent : ℚ) = x at hFaithful hPositive
  have hBound := hFaithful.rank_le
  have hInfinite : 0 < infiniteRank := by decide
  rw [hRank]
  cases c with
  | nan => simp [lt, Below]
  | signed negative r =>
      simp only [lt, Below, sameValue, place, Bool.false_eq_true, if_false, decide_eq_true_eq,
        beq_eq_false_iff_ne]
      by_cases hFinite : r < infiniteRank
      · rw [if_pos hFinite]
        cases negative with
        | false =>
            simp only [Bool.false_eq_true, if_false, Nat.cast_lt, ne_eq, Nat.cast_inj]
            exact hFaithful.lt_rank_iff hFinite
        | true =>
            simp only [if_true]
            constructor
            · intro hLess
              refine ⟨?_, by omega⟩
              by_contra hNot
              have hGrows : magnitude 0 ≤ magnitude r :=
                magnitude_strictMono.monotone (Nat.zero_le r)
              rw [magnitude_zero] at hGrows
              have hNone : magnitude r ≤ magnitude 0 := by
                rw [magnitude_zero]
                linarith
              have hLeast := magnitude_strictMono.le_iff_le.1 hNone
              have hZero := hFaithful.rank_eq_zero (by linarith)
              omega
            · rintro ⟨-, hOther⟩
              omega
      · rw [if_neg hFinite]
        cases negative with
        | false =>
            simp only [Bool.false_eq_true, if_false, false_and, iff_false]
            omega
        | true =>
            simp only [if_true, true_and]
            omega

theorem below_ofInt_two_iff (x : ℚ) : (ofInt 2).Below x ↔ 2 < x := by
  have hTwo : ofInt 2 = .signed false (1023 * binade + binade) := by decide +kernel
  have hBinade : ((binade : Nat) : ℚ) = 2 ^ (52 : Int) := by norm_num [binade]
  have hMagnitude : magnitude (1023 * binade + binade) = 2 := by
    rw [magnitude_eq (by decide) (.inr (Nat.le_refl _)), hBinade, ← zpow_add₀ (by norm_num)]
    norm_num
  have hFinite : 1023 * binade + binade < infiniteRank := by decide
  rw [hTwo, Below, if_pos hFinite, hMagnitude]
  rfl

end Composer.Binary64
