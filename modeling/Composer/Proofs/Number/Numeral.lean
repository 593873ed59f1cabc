import Composer.Number.Reading
import Composer.Proofs.Text.Digits
import Composer.Proofs.Text.Letters
import Mathlib.Algebra.Order.Field.Power
import Mathlib.Algebra.Order.Field.Rat
import Mathlib.Data.List.TakeWhile
import Mathlib.Tactic.NormNum
import Mathlib.Tactic.Ring

/-! Numerals: the ways to write a decimal that is not negative, and the number that is written. The
number before the exponent is kept apart, because some readers stop there. -/

namespace Composer

/-- The exponent of a numeral: its mark, perhaps a sign, which is true for minus, and digits. -/
structure Exponent where
  mark : Char
  sign : Option Bool
  digits : Text
  isMark : mark = 'e' ∨ mark = 'E'
  areDigits : digits.all isAsciiDigit
  filled : digits ≠ []

namespace Exponent

def signSource : Option Bool → Text
  | none => []
  | some negative => [if negative then '-' else '+']

def source (e : Exponent) : Text := e.mark :: signSource e.sign ++ e.digits

def value (e : Exponent) : Int := Reading.signedValue (e.sign.getD false) e.digits

end Exponent

/-- An unsigned decimal: digits with an optional fraction, or a fraction alone, with an optional
exponent. A point may end the digits. -/
structure Numeral where
  whole : Text
  fraction : Option Text
  exponent : Option Exponent
  wholeDigits : whole.all isAsciiDigit
  fractionDigits : (fraction.getD []).all isAsciiDigit
  filled : whole ++ fraction.getD [] ≠ []

namespace Numeral

def fractionSource : Option Text → Text
  | none => []
  | some digits => '.' :: digits

def exponentSource : Option Exponent → Text
  | none => []
  | some e => e.source

def source (x : Numeral) : Text :=
  x.whole ++ fractionSource x.fraction ++ exponentSource x.exponent

def digits (x : Numeral) : Nat := digitsValue (x.whole ++ x.fraction.getD [])

def places (x : Numeral) : Nat := (x.fraction.getD []).length

/-- The number that stands before the exponent. -/
def mantissa (x : Numeral) : ℚ := x.digits * 10 ^ (-(x.places : Int))

def value (x : Numeral) : ℚ := x.mantissa * 10 ^ (x.exponent.elim 0 Exponent.value)

/-- The number of the format nearest to the one before the exponent. -/
def rounded (x : Numeral) : Binary64 := .ofDecimal false x.digits (-(x.places : Int))

theorem value_of_exponent_eq_none {x : Numeral} (h : x.exponent = none) : x.value = x.mantissa := by
  rw [value, h, Option.elim_none, zpow_zero, mul_one]

/-- A numeral begins with a digit or a point. -/
theorem exists_source_eq_digit_cons (x : Numeral) :
    ∃ c rest, x.source = c :: rest ∧ (isAsciiDigit c ∨ c = '.') := by
  cases hWhole : x.whole with
  | cons c whole =>
      have hDigit : isAsciiDigit c :=
        List.all_eq_true.1 x.wholeDigits c (hWhole ▸ List.mem_cons_self)
      refine ⟨c, whole ++ fractionSource x.fraction ++ exponentSource x.exponent, ?_, .inl hDigit⟩
      rw [source, hWhole]
      rfl
  | nil =>
      cases hFraction : x.fraction with
      | none => exact absurd (by rw [hWhole, hFraction]; rfl) x.filled
      | some digits =>
          refine ⟨'.', digits ++ exponentSource x.exponent, ?_, .inr rfl⟩
          rw [source, hWhole, hFraction]
          rfl

theorem exists_source_eq_cons (x : Numeral) :
    ∃ c rest, x.source = c :: rest ∧ isBlank c = false := by
  obtain ⟨c, rest, hSource, hDigit | rfl⟩ := x.exists_source_eq_digit_cons
  · exact ⟨c, rest, hSource, isBlank_eq_false_of_isAsciiDigit hDigit⟩
  · exact ⟨'.', rest, hSource, by decide⟩

/-- A numeral is made of digits and of few other characters. -/
theorem isAsciiDigit_or_mem_of_mem_source {x : Numeral} {c : Char} (h : c ∈ x.source) :
    isAsciiDigit c ∨ c ∈ (".eE+-" : Text) := by
  have hDigit {t : Text} (hAll : t.all isAsciiDigit) (hc : c ∈ t) : isAsciiDigit c :=
    List.all_eq_true.1 hAll c hc
  rcases List.mem_append.1 h with hMantissa | hExponent
  · rcases List.mem_append.1 hMantissa with hWhole | hFraction
    · exact .inl (hDigit x.wholeDigits hWhole)
    · have hDigits := x.fractionDigits
      cases hSome : x.fraction with
      | none => simp [hSome, fractionSource] at hFraction
      | some digits =>
          rw [hSome, fractionSource, List.mem_cons] at hFraction
          rw [hSome, Option.getD_some] at hDigits
          rcases hFraction with rfl | hc
          · exact .inr (by decide)
          · exact .inl (hDigit hDigits hc)
  · cases hSome : x.exponent with
    | none => simp [hSome, exponentSource] at hExponent
    | some e =>
        rw [hSome, exponentSource, Exponent.source, List.mem_append, List.mem_cons] at hExponent
        rcases hExponent with (rfl | hSign) | hc
        · right
          rcases e.isMark with hMark | hMark
          · rw [hMark]
            decide
          · rw [hMark]
            decide
        · right
          match e.sign, hSign with
          | some false, hSign => exact List.mem_singleton.1 hSign ▸ by decide
          | some true, hSign => exact List.mem_singleton.1 hSign ▸ by decide
        · exact .inl (hDigit e.areDigits hc)

/-- The power of ten of the last digit. -/
def power (x : Numeral) : Int := x.exponent.elim 0 Exponent.value - x.places

theorem value_eq (x : Numeral) : x.value = x.digits * 10 ^ x.power := by
  rw [value, mantissa, power, mul_assoc, ← zpow_add₀ (by norm_num)]
  congr 2
  ring

end Numeral

namespace Reading

/-- Digits are taken off a text up to something else. -/
theorem span_digits {digits rest : Text} (hDigits : digits.all isAsciiDigit)
    (hRest : ∀ c ∈ rest.head?, isAsciiDigit c = false) :
    (digits ++ rest).takeWhile isAsciiDigit = digits ∧
      (digits ++ rest).dropWhile isAsciiDigit = rest := by
  have hAll : ∀ c ∈ digits, isAsciiDigit c := List.all_eq_true.1 hDigits
  cases rest with
  | nil =>
      rw [List.append_nil]
      exact ⟨List.takeWhile_eq_self_iff.2 hAll, List.dropWhile_eq_nil_iff.2 hAll⟩
  | cons c rest =>
      have hOther : isAsciiDigit c = false := hRest c rfl
      rw [List.takeWhile_append_of_pos hAll, List.dropWhile_append_of_pos hAll]
      simp [hOther]

/-- Digits have no sign in front. -/
theorem sign_of_digits {t : Text} (hDigits : t.all isAsciiDigit) : sign t = (false, t) := by
  unfold sign
  split
  · exact absurd (List.all_eq_true.1 hDigits _ List.mem_cons_self) (by decide)
  · exact absurd (List.all_eq_true.1 hDigits _ List.mem_cons_self) (by decide)
  · rfl

theorem sign_exponent (e : Exponent) :
    sign (Exponent.signSource e.sign ++ e.digits) = (e.sign.getD false, e.digits) := by
  cases e.sign with
  | none => exact sign_of_digits e.areDigits
  | some negative => cases negative <;> rfl

theorem exponentSource_head (exponent : Option Exponent) :
    ∀ c ∈ (Numeral.exponentSource exponent).head?, isAsciiDigit c = false ∧ c ≠ '.' := by
  cases exponent with
  | none => exact nofun
  | some e =>
      intro c hc
      obtain rfl := Option.some.inj hc
      rcases e.isMark with hMark | hMark
      · rw [hMark]
        decide
      · rw [hMark]
        decide

/-- What is read behind the digits of a decimal: nothing more, or an exponent. -/
def behindDigits (digits : Nat) (places : Int) : Text → Option (Nat × Int)
  | [] => some (digits, -places)
  | e :: u =>
    let (negative, power) := sign u
    if (e == 'e' || e == 'E') && !power.isEmpty && power.all isAsciiDigit then
      some (digits, signedValue negative power - places)
    else none

theorem behindDigits_source (digits : Nat) (places : Int) (exponent : Option Exponent) :
    behindDigits digits places (Numeral.exponentSource exponent) =
      some (digits, exponent.elim 0 Exponent.value - places) := by
  cases exponent with
  | none => simp [Numeral.exponentSource, behindDigits]
  | some e =>
      have hMark : (e.mark == 'e' || e.mark == 'E') = true := by simpa using e.isMark
      have hFilled : e.digits.isEmpty = false := List.isEmpty_eq_false_iff.2 e.filled
      change behindDigits digits places
        (e.mark :: (Exponent.signSource e.sign ++ e.digits)) = _
      rw [behindDigits, sign_exponent]
      simp [hMark, hFilled, e.areDigits, Exponent.value]

section
variable {t whole fraction rest : Text} (hTake : t.takeWhile isAsciiDigit = whole)
include hTake

theorem decimal?_of_whole (hDrop : t.dropWhile isAsciiDigit = rest) (hPoint : ∀ u, rest ≠ '.' :: u)
    (hFilled : whole ≠ []) : decimal? t = behindDigits (digitsValue whole) 0 rest := by
  unfold decimal?
  cases rest with
  | nil => simp [hTake, hDrop, hFilled, behindDigits]
  | cons c u =>
      have hOther : c ≠ '.' := fun hSame => hPoint u (by rw [hSame])
      simp [hTake, hDrop, hFilled, behindDigits]

theorem decimal?_of_point {u : Text} (hDrop : t.dropWhile isAsciiDigit = '.' :: u)
    (hTake' : u.takeWhile isAsciiDigit = fraction) (hDrop' : u.dropWhile isAsciiDigit = rest)
    (hFilled : ¬(whole = [] ∧ fraction = [])) :
    decimal? t = behindDigits (digitsValue (whole ++ fraction)) fraction.length rest := by
  unfold decimal?
  simp only [hTake, hDrop, hTake', hDrop', if_neg hFilled]
  rfl

end

/-- A numeral is read as the decimal that it writes. -/
theorem decimal?_source (x : Numeral) : decimal? x.source = some (x.digits, x.power) := by
  have hHead := exponentSource_head x.exponent
  have hFilled := x.filled
  cases hFraction : x.fraction with
  | none =>
      rw [hFraction, Option.getD_none, List.append_nil] at hFilled
      obtain ⟨hTake, hDrop⟩ := span_digits x.wholeDigits fun c hc => (hHead c hc).1
      have hSource : x.source = x.whole ++ Numeral.exponentSource x.exponent := by
        rw [Numeral.source, hFraction, Numeral.fractionSource, List.append_nil]
      have hPoint : ∀ u, Numeral.exponentSource x.exponent ≠ '.' :: u := fun u hSame =>
        (hHead '.' (by rw [hSame]; rfl)).2 rfl
      rw [hSource, decimal?_of_whole hTake hDrop hPoint hFilled, behindDigits_source]
      simp [Numeral.digits, Numeral.power, Numeral.places, hFraction]
  | some digits =>
      have hDigits := x.fractionDigits
      rw [hFraction, Option.getD_some] at hFilled hDigits
      have hPoint : ∀ c ∈ ('.' :: (digits ++ Numeral.exponentSource x.exponent)).head?,
          isAsciiDigit c = false := by
        simp [isAsciiDigit]
      obtain ⟨hTake, hDrop⟩ := span_digits x.wholeDigits hPoint
      obtain ⟨hTake', hDrop'⟩ := span_digits hDigits fun c hc => (hHead c hc).1
      have hSource : x.source = x.whole ++ '.' :: (digits ++ Numeral.exponentSource x.exponent) := by
        rw [Numeral.source, hFraction, Numeral.fractionSource, List.append_assoc, List.cons_append]
      have hNonempty : ¬(x.whole = [] ∧ digits = []) := fun h => hFilled (by rw [h.1, h.2]; rfl)
      rw [hSource, decimal?_of_point hTake hDrop hTake' hDrop' hNonempty, behindDigits_source]
      simp [Numeral.digits, Numeral.power, Numeral.places, hFraction]

theorem toLower_of_isAsciiDigit {c : Char} (h : isAsciiDigit c) : c.toLower = c := by
  rw [isAsciiDigit_iff] at h
  apply toLower_eq_self
  omega

/-- A numeral has no sign in front. -/
theorem sign_source (x : Numeral) : sign x.source = (false, x.source) := by
  obtain ⟨c, rest, hSource, hFirst⟩ := x.exists_source_eq_digit_cons
  rw [hSource]
  unfold sign
  split
  · next hSame =>
      obtain rfl := (List.cons.inj hSame).1
      exact absurd hFirst (by decide)
  · next hSame =>
      obtain rfl := (List.cons.inj hSame).1
      exact absurd hFirst (by decide)
  · rfl

/-- A numeral, perhaps with a sign in front, is read as the number nearest to what it writes. -/
theorem plainNumber?_source {t : Text} {negative : Bool} {x : Numeral}
    (h : sign t = (negative, x.source)) :
    plainNumber? t = some (.ofDecimal negative x.digits x.power) := by
  obtain ⟨c, rest, hSource, hFirst⟩ := x.exists_source_eq_digit_cons
  have hLower : c.toLower = c := by
    rcases hFirst with hDigit | rfl
    · exact toLower_of_isAsciiDigit hDigit
    · decide
  have hWord {d : Char} (word : Text) (hDigit : isAsciiDigit d = false) (hPoint : d ≠ '.') :
      x.source.map Char.toLower ≠ d :: word := by
    rw [hSource, List.map_cons, hLower]
    intro hSame
    obtain rfl := (List.cons.inj hSame).1
    rcases hFirst with hFirst | hFirst
    · exact Bool.false_ne_true (hDigit.symm.trans hFirst)
    · exact hPoint hFirst
  have hInfinite : ¬(x.source.map Char.toLower = ("inf" : Text) ∨
      x.source.map Char.toLower = ("infinity" : Text)) :=
    not_or.2 ⟨hWord _ (by decide) (by decide), hWord _ (by decide) (by decide)⟩
  have hNan : x.source.map Char.toLower ≠ ("nan" : Text) := hWord _ (by decide) (by decide)
  unfold plainNumber?
  simp only [h]
  rw [if_neg hInfinite, if_neg hNan, decimal?_source]
  rfl

end Reading

end Composer
