import Composer.Code.Validation
import Composer.Proofs.Code.Continuation

/-!
Which code can be judged. Every rule but one is a total measure of the code, so the only code without
a judgement is code whose factors of acceleration cannot all be read: reading them from left to
right comes upon one with too many digits before one above the ceiling. The policy has no part in
it.
-/

namespace Composer

theorem eq_ok_of_toOption {ε α : Type} {x : Except ε α} {a : α} (h : x.toOption = some a) :
    x = .ok a := by
  cases x with
  | error e => exact absurd h nofun
  | ok b => exact congrArg Except.ok (Option.some.inj h)

namespace Validation

/-- A factor that reading passes over: it has not too many digits and is within the ceiling. -/
def Readable (digits : Text) : Prop :=
  digits.length ≤ Reading.digitLimit ∧ digitsValue digits ≤ Policy.maxFastFactor

/-- Reading factors from left to right stops at one with too many digits. What comes after it does
not matter. -/
def StopsAt (digits : Text) (factors : List Text) : Prop :=
  ∃ before after, factors = before ++ digits :: after ∧ (∀ d ∈ before, Readable d) ∧
    Reading.digitLimit < digits.length

/-- A factor that can be read does not decide where reading stops. -/
theorem stopsAt_cons_iff_of_readable {digits d : Text} {factors : List Text} (hd : Readable d) :
    StopsAt digits (d :: factors) ↔ StopsAt digits factors := by
  constructor
  · rintro ⟨before, after, hFactors, hBefore, hLong⟩
    cases before with
    | nil =>
        obtain ⟨rfl, -⟩ := List.cons.inj hFactors
        exact absurd hd.1 (Nat.not_le.2 hLong)
    | cons b before =>
        exact ⟨before, after, (List.cons.inj hFactors).2,
          fun x hx => hBefore x (List.mem_cons_of_mem b hx), hLong⟩
  · rintro ⟨before, after, rfl, hBefore, hLong⟩
    exact ⟨d :: before, after, rfl, List.forall_mem_cons.2 ⟨hd, hBefore⟩, hLong⟩

/-- A factor that cannot be read and passed over is the only place where reading may stop. -/
theorem stopsAt_cons_iff_of_not_readable {digits d : Text} {factors : List Text}
    (hd : ¬Readable d) :
    StopsAt digits (d :: factors) ↔ digits = d ∧ Reading.digitLimit < d.length := by
  constructor
  · rintro ⟨before, after, hFactors, hBefore, hLong⟩
    cases before with
    | nil =>
        obtain ⟨rfl, -⟩ := List.cons.inj hFactors
        exact ⟨rfl, hLong⟩
    | cons b before =>
        obtain ⟨rfl, -⟩ := List.cons.inj hFactors
        exact absurd (hBefore d List.mem_cons_self) hd
  · rintro ⟨rfl, hLong⟩
    exact ⟨[], factors, rfl, by simp, hLong⟩

/-- The reading of factors fails exactly where it stops, and names the digits it found there. -/
theorem exceedsFactor_eq_error_iff (factors : List Text) (error : ValidationError) :
    exceedsFactor factors = .error error ↔
      ∃ digits, StopsAt digits factors ∧ error = .oversizedFactor digits.length := by
  induction factors with
  | nil => simp [exceedsFactor, StopsAt]
  | cons d factors ih =>
      unfold exceedsFactor
      by_cases hLong : Reading.digitLimit < d.length
      · have hd : ¬Readable d := fun h => absurd h.1 (Nat.not_le.2 hLong)
        simp [hLong, stopsAt_cons_iff_of_not_readable hd, eq_comm]
      · by_cases hFast : Policy.maxFastFactor < digitsValue d
        · have hd : ¬Readable d := fun h => absurd h.2 (Nat.not_le.2 hFast)
          simp [hLong, hFast, stopsAt_cons_iff_of_not_readable hd]
        · have hd : Readable d := ⟨Nat.not_lt.1 hLong, Nat.not_lt.1 hFast⟩
          simp only [hLong, hFast, if_false, ih, stopsAt_cons_iff_of_readable hd]

/-- Code has no judgement exactly when the reading of its factors stops. -/
theorem validate_eq_error_iff (p : Policy) (code : Text) (error : ValidationError) :
    validate p code = .error error ↔
      ∃ digits, StopsAt digits (Measure.fastFactors code) ∧
        error = .oversizedFactor digits.length := by
  rw [← exceedsFactor_eq_error_iff]
  unfold validate issues dangerIssues
  cases exceedsFactor (Measure.fastFactors code) <;> simp [Except.map]

/-- Code whose dangers can be told can be judged under every policy. -/
theorem issues_of_dangerIssues {code : Text} {danger : List Issue}
    (h : dangerIssues code = .ok danger) (p : Policy) :
    issues p code = .ok (measuredIssues p code ++ danger) := by
  unfold issues
  rw [h]
  rfl

theorem exists_dangerIssues_of_validate {p : Policy} {code : Text} {verdict : Verdict}
    (h : validate p code = .ok verdict) :
    ∃ danger, dangerIssues code = .ok danger ∧
      verdict = ⟨(measuredIssues p code ++ danger).map Issue.message⟩ := by
  unfold validate issues at h
  cases hDanger : dangerIssues code with
  | error error =>
      rw [hDanger] at h
      cases h
  | ok danger =>
      rw [hDanger] at h
      exact ⟨danger, rfl, (Except.ok.inj h).symm⟩

end Validation

namespace Call

theorem methodWithDigits?_replicate {name : Text} {d : Char} {n : Nat} (hDigit : isDecimalDigit d)
    (hBlank : isBlank d = false) :
    methodWithDigits? name (('.' :: name) ++ '(' :: List.replicate (n + 1) d) =
      some (List.replicate (n + 1) d, []) := by
  have hOpening : opening? ('(' :: List.replicate (n + 1) d) = some (List.replicate (n + 1) d) := rfl
  have hSkip : Text.skipBlanks (List.replicate (n + 1) d) = List.replicate (n + 1) d := by
    simp [Text.skipBlanks, hBlank]
  rw [methodWithDigits?, method?, named?, Text.after?_append, Option.bind_some, hOpening,
    Option.bind_some]
  simp only [hSkip, List.takeWhile_replicate, List.dropWhile_replicate, hDigit, if_true]
  rfl

end Call

namespace Validation

/-- Code whose only factor has `n` digits. -/
def factorCode (n : Nat) : Text :=
  ['$', ':', 'n', 'o', 't', 'e', '('] ++ (('.' :: ("fast" : Text)) ++ '(' :: List.replicate n '7')

theorem fastFactors_factorCode (n : Nat) :
    Measure.fastFactors (factorCode (n + 1)) = [List.replicate (n + 1) '7'] := by
  have hShrinks : Call.Shrinks (Call.methodWithDigits? "fast") :=
    (Call.unbroken_methodWithDigits? (by decide) (by decide)).shrinks
  have hLead : '.' ∉ (['$', ':', 'n', 'o', 't', 'e', '('] : Text) := by decide
  rw [Measure.fastFactors, factorCode, Call.findAll_append hShrinks, List.cons_append,
    Call.findAll_cons hShrinks, ← List.cons_append,
    Call.methodWithDigits?_replicate (by decide) (by decide)]
  · rfl
  · intro u hu hFilled
    obtain ⟨c, rest, rfl⟩ := List.exists_cons_of_ne_nil hFilled
    have hc : '.' ≠ c := fun hSame => hLead (hu.subset (hSame ▸ List.mem_cons_self))
    simp [Call.methodWithDigits?, Call.method?, Call.named?, Text.after?, hc]

/-- The reading of its factors stops as soon as there are more digits than the limit. -/
theorem stopsAt_factorCode {n : Nat} (h : Reading.digitLimit ≤ n) :
    StopsAt (List.replicate (n + 1) '7') (Measure.fastFactors (factorCode (n + 1))) := by
  refine ⟨[], [], fastFactors_factorCode n, by simp, ?_⟩
  rw [List.length_replicate]
  exact Nat.lt_succ_of_le h

end Validation

end Composer
