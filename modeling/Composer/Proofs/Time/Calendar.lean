import Composer.Time.Date
import Mathlib.Algebra.GroupWithZero.Nat

/-!
The calendar counts its days without gaps: every number from 1 on is that of a day, the day exists
as long as its year is one that dates are written in, and it has that number.
-/

namespace Composer.Date

theorem isLeapYear_iff (year : Nat) :
    isLeapYear year ↔ year % 4 = 0 ∧ (year % 100 ≠ 0 ∨ year % 400 = 0) := by
  simp [isLeapYear]

theorem sum_monthLengths (year : Nat) :
    (monthLengths year).sum = if isLeapYear year then 366 else 365 := by
  cases hLeap : isLeapYear year <;> simp [monthLengths, hLeap]

theorem monthLengths_le (year i : Nat) : (monthLengths year).getD i 0 ≤ 31 := by
  have hAll : ∀ n ∈ monthLengths year, n ≤ 31 := by
    cases hLeap : isLeapYear year <;> simp [monthLengths, hLeap]
  rw [List.getD_eq_getElem?_getD]
  cases hLength : (monthLengths year)[i]? with
  | none => exact Nat.zero_le 31
  | some n => exact hAll n (List.mem_of_getElem? hLength)

theorem foldl_add_eq_sum (lengths : List Nat) : lengths.foldl Nat.add 0 = lengths.sum := by
  rw [List.sum_eq_foldl]
  rfl

/-- The months and days of a year, one after the other. -/
theorem monthAndDay_eq (lengths : List Nat) (month rest : Nat) (hRest : rest < lengths.sum) :
    ∃ i day, monthAndDay lengths month rest = (month + i, day) ∧ i < lengths.length ∧ 1 ≤ day ∧
      day ≤ lengths.getD i 0 ∧ (lengths.take i).sum + day = rest + 1 := by
  induction lengths generalizing month rest with
  | nil => exact absurd hRest (Nat.not_lt_zero rest)
  | cons length lengths ih =>
      rw [monthAndDay]
      split
      · next hHere =>
          have hDay : rest + 1 ≤ length := hHere
          exact ⟨0, rest + 1, rfl, by simp, by omega, by simpa using hDay, by simp⟩
      · next hLater =>
          rw [List.sum_cons] at hRest
          obtain ⟨i, day, hEq, hIndex, hFirst, hLast, hSum⟩ :=
            ih (month + 1) (rest - length) (by omega)
          refine ⟨i + 1, day, ?_, by simpa using hIndex, hFirst, by simpa using hLast, ?_⟩
          · rw [hEq, Nat.add_assoc, Nat.add_comm 1 i]
          · rw [List.take_succ_cons, List.sum_cons]
            omega

/-- The years of four spans, and the days in them. -/
theorem daysInYears_spans {a b c d : Nat} (hb : b ≤ 3) (hc : c ≤ 24) (hd : d ≤ 3) :
    daysInYears (400 * a + 100 * b + 4 * c + d) = 146097 * a + 36524 * b + 1461 * c + 365 * d := by
  unfold daysInYears
  omega

/-- A number of days as the days of whole years, and those of a part of the year after. -/
theorem exists_years (days : Nat) : ∃ a b c d rest,
    a = days / 146097 ∧ b = min 3 (days % 146097 / 36524) ∧
    c = (days % 146097 - 36524 * b) / 1461 ∧
    d = min 3 ((days % 146097 - 36524 * b) % 1461 / 365) ∧
    rest = (days % 146097 - 36524 * b) % 1461 - 365 * d ∧
    daysInYears (400 * a + 100 * b + 4 * c + d) + rest = days ∧
    rest < (monthLengths (400 * a + 100 * b + 4 * c + d + 1)).sum := by
  refine ⟨_, _, _, _, _, rfl, rfl, rfl, rfl, rfl, ?_, ?_⟩
  · rw [daysInYears_spans (by omega) (by omega) (by omega)]
    omega
  · rw [sum_monthLengths]
    split
    · omega
    · next hCommon =>
        rw [isLeapYear_iff] at hCommon
        omega

/-- The parts of the day that has a number. -/
theorem ofNumber_eq {n : Nat} (hFirst : 1 ≤ n) :
    ∃ years i day, ofNumber n = ⟨years + 1, i + 1, day⟩ ∧ i < 12 ∧ 1 ≤ day ∧
      day ≤ (monthLengths (years + 1)).getD i 0 ∧
      daysInYears years + ((monthLengths (years + 1)).take i).sum + day = n := by
  obtain ⟨a, b, c, d, rest, hA, hB, hC, hD, hRest, hDays, hWithin⟩ := exists_years (n - 1)
  obtain ⟨i, day, hEq, hIndex, hDay, hLength, hSum⟩ := monthAndDay_eq _ 1 rest hWithin
  refine ⟨400 * a + 100 * b + 4 * c + d, i, day, ?_, hIndex, hDay, hLength, by omega⟩
  rw [ofNumber]
  subst hA hB hC hD hRest
  rw [hEq, Nat.add_comm 1 i]

/-- The day with a number has that number. -/
theorem number_ofNumber {n : Nat} (hFirst : 1 ≤ n) : (ofNumber n).number = n := by
  obtain ⟨years, i, day, hEq, -, -, -, hNumber⟩ := ofNumber_eq hFirst
  rw [hEq, number, foldl_add_eq_sum]
  exact hNumber

theorem lastNumber_eq : lastNumber = 3652059 := by decide +kernel

/-- Every number up to the last one is that of a day that exists. -/
theorem isValid_ofNumber {n : Nat} (hFirst : 1 ≤ n) (hLast : n ≤ lastNumber) :
    (ofNumber n).isValid := by
  obtain ⟨years, i, day, hEq, hIndex, hDay, hLength, hNumber⟩ := ofNumber_eq hFirst
  have hYears : years < 9999 := by
    rw [lastNumber_eq] at hLast
    unfold daysInYears at hNumber
    omega
  have hYear : years + 1 ≤ lastYear := hYears
  rw [hEq]
  simp only [isValid, Bool.and_eq_true, decide_eq_true_eq, Nat.add_sub_cancel]
  exact ⟨⟨⟨⟨⟨Nat.le_add_left 1 years, hYear⟩, Nat.le_add_left 1 i⟩, hIndex⟩, hDay⟩, hLength⟩

/-! ### The numbers of the days that exist -/

theorem daysInYears_succ (years : Nat) :
    daysInYears (years + 1) = daysInYears years + (monthLengths (years + 1)).sum := by
  have hFewer : years / 100 ≤ years / 4 := Nat.div_le_div_left (by decide) (by decide)
  have hKinds : ((years + 1) % 4 ≠ 0 ∧ (years + 1) % 100 ≠ 0 ∧ (years + 1) % 400 ≠ 0) ∨
      ((years + 1) % 4 = 0 ∧ (years + 1) % 100 ≠ 0 ∧ (years + 1) % 400 ≠ 0) ∨
      ((years + 1) % 4 = 0 ∧ (years + 1) % 100 = 0 ∧ (years + 1) % 400 ≠ 0) ∨
      ((years + 1) % 4 = 0 ∧ (years + 1) % 100 = 0 ∧ (years + 1) % 400 = 0) := by
    omega
  have hLeap := isLeapYear_iff (years + 1)
  simp only [daysInYears, sum_monthLengths, Nat.succ_div, Nat.dvd_iff_mod_eq_zero]
  rcases hKinds with ⟨hFour, hHundred, hRest⟩ | ⟨hFour, hHundred, hRest⟩ |
    ⟨hFour, hHundred, hRest⟩ | ⟨hFour, hHundred, hRest⟩
  · have hCommon : ¬isLeapYear (years + 1) := fun h => hFour (hLeap.1 h).1
    rw [if_neg hCommon, if_neg hFour, if_neg hHundred, if_neg hRest]
    omega
  · rw [if_pos (hLeap.2 ⟨hFour, .inl hHundred⟩), if_pos hFour, if_neg hHundred, if_neg hRest]
    omega
  · have hCommon : ¬isLeapYear (years + 1) := fun h =>
      (hLeap.1 h).2.elim (fun hOther => hOther hHundred) hRest
    rw [if_neg hCommon, if_pos hFour, if_pos hHundred, if_neg hRest]
    omega
  · rw [if_pos (hLeap.2 ⟨hFour, .inr hRest⟩), if_pos hFour, if_pos hHundred, if_pos hRest]
    omega

theorem sum_take_add_le {lengths : List Nat} {i day : Nat} (hDay : day ≤ lengths.getD i 0) :
    (lengths.take i).sum + day ≤ lengths.sum := by
  induction lengths generalizing i with
  | nil => simpa using hDay
  | cons length lengths ih =>
      cases i with
      | zero =>
          have hHere : day ≤ length := by simpa using hDay
          rw [List.sum_cons, List.take_zero, List.sum_nil]
          omega
      | succ i =>
          have hLater := ih (i := i) (by simpa using hDay)
          rw [List.sum_cons, List.take_succ_cons, List.sum_cons]
          omega

/-- A day that exists, as its number tells it. -/
theorem number_of_isValid {d : Date} (h : d.isValid) :
    1 ≤ d.number ∧ d.number ≤ lastNumber ∧ (d.number = 1 ↔ d = ⟨1, 1, 1⟩) := by
  obtain ⟨year, month, day⟩ := d
  simp only [isValid, Bool.and_eq_true, decide_eq_true_eq] at h
  obtain ⟨⟨⟨⟨⟨hYear, hLastYear⟩, hMonth⟩, -⟩, hDay⟩, hLength⟩ := h
  obtain ⟨years, rfl⟩ : ∃ years, year = years + 1 := ⟨year - 1, by omega⟩
  obtain ⟨i, rfl⟩ : ∃ i, month = i + 1 := ⟨month - 1, by omega⟩
  have hNumber : number ⟨years + 1, i + 1, day⟩ =
      daysInYears years + ((monthLengths (years + 1)).take i).sum + day := by
    rw [number, foldl_add_eq_sum]
    rfl
  have hWithin : ((monthLengths (years + 1)).take i).sum + day ≤ (monthLengths (years + 1)).sum :=
    sum_take_add_le hLength
  have hNext := daysInYears_succ years
  have hLast : daysInYears (years + 1) ≤ lastNumber := by
    have hBelow : years + 1 ≤ 9999 := hLastYear
    rw [lastNumber_eq]
    unfold daysInYears
    omega
  rw [hNumber]
  refine ⟨by omega, by omega, fun hOne => ?_, fun hFirst => ?_⟩
  · have hYears : years = 0 := by
      have hSame : daysInYears years = 0 := by omega
      unfold daysInYears at hSame
      omega
    have hMonths : i = 0 := by
      cases i with
      | zero => rfl
      | succ i =>
          simp [monthLengths] at hOne
          omega
    have hDays : day = 1 := by omega
    rw [hYears, hMonths, hDays]
  · obtain ⟨hYears, hMonths, hDays⟩ := Date.mk.inj hFirst
    obtain rfl : years = 0 := by omega
    obtain rfl : i = 0 := by omega
    rw [hDays]
    rfl

end Composer.Date
