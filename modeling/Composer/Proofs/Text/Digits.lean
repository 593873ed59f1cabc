import Composer.Text.Blank
import Composer.Text.Digit
import Mathlib.Tactic.Ring

/-! Digits. Those of ASCII are ten characters in a row, none of them white space, and no script has
digits among the white space. A number is read back from the digits it is written with. -/

namespace Composer

theorem isAsciiDigit_iff (c : Char) : isAsciiDigit c ↔ 0x30 ≤ c.toNat ∧ c.toNat ≤ 0x39 := by
  rw [isAsciiDigit, Bool.and_eq_true, decide_eq_true_eq, decide_eq_true_eq, Char.le_def,
    Char.le_def, UInt32.le_iff_toNat_le, UInt32.le_iff_toNat_le]
  rfl

theorem isDecimalDigit_of_isAsciiDigit {c : Char} (h : isAsciiDigit c) : isDecimalDigit c := by
  rw [isAsciiDigit_iff] at h
  rw [isDecimalDigit, digitValue?, Option.isSome_map, List.find?_isSome]
  refine ⟨0x30, by decide, ?_⟩
  rw [Bool.and_eq_true, decide_eq_true_eq, decide_eq_true_eq]
  omega

theorem isBlank_eq_false_of_isAsciiDigit {c : Char} (h : isAsciiDigit c) : isBlank c = false := by
  rw [isAsciiDigit_iff] at h
  simp only [isBlank, Bool.or_eq_false_iff, Bool.and_eq_false_iff, decide_eq_false_iff_not,
    beq_eq_false_iff_ne]
  omega

/-- A text of digits and of a few other characters that are no white space has no white space. -/
theorem Text.isBlank_eq_false_of_digits {t others : Text}
    (h : ∀ c, isAsciiDigit c = false → c ∉ others → c ∉ t) (hOthers : others.any isBlank = false) :
    ∀ c ∈ t, isBlank c = false := by
  intro c hc
  by_contra hBlank
  rw [Bool.not_eq_false] at hBlank
  refine h c ?_ (fun hOther => List.any_eq_false.1 hOthers c hOther hBlank) hc
  rw [← Bool.not_eq_true]
  exact fun hDigit => absurd hBlank (by simp [isBlank_eq_false_of_isAsciiDigit hDigit])

/-- No script has digits among the white space. -/
theorem isDecimalDigit_eq_false_of_isBlank {c : Char} (h : isBlank c) :
    isDecimalDigit c = false := by
  have hZeros : ∀ first ∈ digitZeros, 0x30 ≤ first ∧ (first + 10 ≤ 0x85 ∨ 0xA0 < first) ∧
      (first + 10 ≤ 0x1680 ∨ 0x1680 < first) ∧ (first + 10 ≤ 0x2000 ∨ 0x3000 < first) := by
    decide
  rw [isDecimalDigit, digitValue?, Option.isSome_map, ← Bool.not_eq_true, List.find?_isSome]
  rintro ⟨first, hFirst, hDigit⟩
  have hPlace := hZeros first hFirst
  simp only [isBlank, Bool.or_eq_true, Bool.and_eq_true, decide_eq_true_eq, beq_iff_eq] at h hDigit
  omega

/-- A digit is none of the other characters. -/
theorem ne_of_isAsciiDigit {c d : Char} (h : isAsciiDigit c) (hOther : isAsciiDigit d = false) :
    c ≠ d := by
  rintro rfl
  exact Bool.false_ne_true (hOther.symm.trans h)

theorem digitValue?_asciiDigit (n : Nat) : digitValue? (asciiDigit n) = some (n % 10) := by
  have hDigits : ∀ d < 10, digitValue? (Char.ofNat (48 + d)) = some d := by decide
  exact hDigits (n % 10) (Nat.mod_lt n (by decide))

theorem Text.foldl_digitsBefore {fuel n : Nat} (hFuel : n < fuel) (rest : Text) :
    (digitsBefore fuel n rest).foldl (fun n c => 10 * n + (digitValue? c).getD 0) 0 =
      rest.foldl (fun n c => 10 * n + (digitValue? c).getD 0) n := by
  induction fuel generalizing n rest with
  | zero => exact absurd hFuel (Nat.not_lt_zero n)
  | succ fuel ih =>
      unfold digitsBefore
      split
      · next hDigit =>
          rw [List.foldl_cons, digitValue?_asciiDigit, Option.getD_some, Nat.mod_eq_of_lt hDigit,
            Nat.mul_zero, Nat.zero_add]
      · rw [ih (by omega), List.foldl_cons, digitValue?_asciiDigit, Option.getD_some,
          Nat.div_add_mod]

/-- A number is read back from its digits. -/
theorem digitsValue_ofNat (n : Nat) : digitsValue (Text.ofNat n) = n :=
  Text.foldl_digitsBefore (Nat.lt_succ_self n) []

theorem isAsciiDigit_asciiDigit (n : Nat) : isAsciiDigit (asciiDigit n) := by
  have hDigits : ∀ d < 10, isAsciiDigit (Char.ofNat (48 + d)) := by decide
  exact hDigits (n % 10) (Nat.mod_lt n (by decide))

theorem Text.all_digitsBefore (fuel n : Nat) {rest : Text} (hRest : rest.all isAsciiDigit) :
    (digitsBefore fuel n rest).all isAsciiDigit := by
  induction fuel generalizing n rest with
  | zero => exact hRest
  | succ fuel ih =>
      have hMore : (asciiDigit n :: rest).all isAsciiDigit := by
        rw [List.all_cons, isAsciiDigit_asciiDigit, hRest]
        rfl
      unfold digitsBefore
      split
      · exact hMore
      · exact ih (n / 10) hMore

theorem Text.all_ofNat (n : Nat) : (ofNat n).all isAsciiDigit := all_digitsBefore (n + 1) n rfl

theorem Text.not_mem_ofNat {c : Char} (h : isAsciiDigit c = false) (n : Nat) : c ∉ ofNat n :=
  fun hMem => Bool.false_ne_true (h.symm.trans (List.all_eq_true.1 (all_ofNat n) c hMem))

theorem Text.all_replicate_zero (k : Nat) : (List.replicate k '0').all isAsciiDigit := by
  rw [List.all_replicate]
  split
  · rfl
  · rfl

theorem foldl_digits (t : Text) (n : Nat) :
    t.foldl (fun n c => 10 * n + (digitValue? c).getD 0) n = n * 10 ^ t.length + digitsValue t := by
  induction t generalizing n with
  | nil => simp [digitsValue]
  | cons c t ih =>
      rw [digitsValue, List.foldl_cons, List.foldl_cons, ih, ih (10 * 0 + _), List.length_cons,
        Nat.pow_succ]
      ring

theorem digitsValue_append (s t : Text) :
    digitsValue (s ++ t) = digitsValue s * 10 ^ t.length + digitsValue t := by
  rw [digitsValue, List.foldl_append, foldl_digits]
  rfl

@[simp] theorem digitsValue_replicate_zero (k : Nat) : digitsValue (List.replicate k '0') = 0 := by
  induction k with
  | zero => rfl
  | succ k ih =>
      rw [List.replicate_succ', digitsValue_append, ih, Nat.zero_mul]
      decide

theorem digitsValue_ofNatPadded (width n : Nat) : digitsValue (Text.ofNatPadded width n) = n := by
  rw [Text.ofNatPadded, digitsValue_append, digitsValue_replicate_zero, Nat.zero_mul, Nat.zero_add,
    digitsValue_ofNat]

theorem Text.all_ofNatPadded (width n : Nat) : (ofNatPadded width n).all isAsciiDigit := by
  rw [ofNatPadded, List.all_append, all_replicate_zero, all_ofNat]
  rfl

theorem Text.not_mem_ofNatPadded {c : Char} (h : isAsciiDigit c = false) (width n : Nat) :
    c ∉ ofNatPadded width n := fun hMem =>
  Bool.false_ne_true (h.symm.trans (List.all_eq_true.1 (all_ofNatPadded width n) c hMem))

theorem Text.length_digitsBefore {fuel n : Nat} (hFuel : n < fuel) (rest : Text) :
    ∃ k, (digitsBefore fuel n rest).length = rest.length + k + 1 ∧ n < 10 ^ (k + 1) ∧
      (n ≠ 0 → 10 ^ k ≤ n) := by
  induction fuel generalizing n rest with
  | zero => exact absurd hFuel (Nat.not_lt_zero n)
  | succ fuel ih =>
      unfold digitsBefore
      split
      · next hDigit => exact ⟨0, rfl, by omega, fun hn => by omega⟩
      · obtain ⟨k, hLength, hAbove, hBelow⟩ := ih (n := n / 10) (by omega) (asciiDigit n :: rest)
        refine ⟨k + 1, ?_, ?_, fun _ => ?_⟩
        · rw [hLength, List.length_cons]
          omega
        · rw [Nat.pow_succ]
          omega
        · have hPower := hBelow (by omega)
          rw [Nat.pow_succ]
          omega

/-- A number has as many digits as the least power of ten above it has zeros. -/
theorem Text.length_ofNat (n : Nat) :
    ∃ k, (ofNat n).length = k + 1 ∧ n < 10 ^ (k + 1) ∧ (n ≠ 0 → 10 ^ k ≤ n) := by
  obtain ⟨k, hLength, hAbove, hBelow⟩ := length_digitsBefore (Nat.lt_succ_self n) []
  exact ⟨k, by rw [ofNat, hLength, List.length_nil, Nat.zero_add], hAbove, hBelow⟩

/-- A number has at most `k` digits exactly when it is below the power of ten with `k` zeros. -/
theorem Text.length_ofNat_le_iff {k : Nat} (hk : 0 < k) (n : Nat) :
    (ofNat n).length ≤ k ↔ n < 10 ^ k := by
  by_cases hZero : n = 0
  · subst hZero
    exact iff_of_true hk (Nat.pow_pos (by decide))
  · obtain ⟨j, hLength, hAbove, hBelow⟩ := length_ofNat n
    rw [hLength, Nat.succ_le_iff]
    constructor
    · intro hShort
      exact hAbove.trans_le (Nat.pow_le_pow_right (by decide) hShort)
    · intro hFits
      exact (Nat.pow_lt_pow_iff_right (by decide)).1 ((hBelow hZero).trans_lt hFits)

/-- A number that fits is padded to exactly the width. -/
theorem Text.length_ofNatPadded {width n : Nat} (hWidth : 1 ≤ width) (hFits : n < 10 ^ width) :
    (ofNatPadded width n).length = width := by
  have hShort := (length_ofNat_le_iff hWidth n).2 hFits
  rw [ofNatPadded, List.length_append, List.length_replicate]
  omega

end Composer
