import Composer.Proofs.Code.Judgement
import Composer.Proofs.Response.Escapes

/-!
When code is judged valid, rule by rule. The rules fall into two groups by what undoing escapes does
to them: it never breaks the rules on voices, tempo and brackets, and it may break each of the
others.
-/

namespace Composer

namespace Validation

/-- The rules that undoing escapes never breaks. -/
structure Lasting (p : Policy) (code : Text) : Prop where
  fewVoices : Measure.voices code ≤ p.maxVoices
  tempo : p.requireTempo → Measure.setsTempo code
  balanced : Measure.unbalanced code = []

/-- The rules that undoing escapes may break. -/
structure Exposed (p : Policy) (code : Text) : Prop where
  notTooLong : Measure.lineCount code ≤ p.maxLines
  notTooShort : Policy.minLines ≤ Measure.lineCount code
  builtInSamples : p.rejectForeignSamples → Measure.loadsForeignSamples code = false
  notTooRandom : Measure.randomUses code ≤ p.maxRandomUsage
  mildEffects : Measure.hasExtremeEffects p code = false
  balancedGroups : Measure.unbalancedGroups code = []
  supportedMethods : Measure.unsupportedMethods code = []
  methodsOnPatterns : Measure.callsMethodOnString code = false
  fewEffects : Measure.maxEffectsOnVoice code ≤ p.maxEffectsPerVoice
  slow : ∀ digits ∈ Measure.fastFactors code, Readable digits
  low : Measure.hasNinthOctave code = false

theorem issueIf_eq_nil_iff {fails : Bool} {issue : Issue} :
    issueIf fails issue = [] ↔ fails = false := by
  cases fails <;> simp [issueIf]

/-- No factor exceeds the ceiling exactly when all of them can be read and passed over. -/
theorem exceedsFactor_eq_false_iff (factors : List Text) :
    exceedsFactor factors = .ok false ↔ ∀ digits ∈ factors, Readable digits := by
  induction factors with
  | nil => simp [exceedsFactor]
  | cons d factors ih =>
      unfold exceedsFactor
      by_cases hLong : Reading.digitLimit < d.length
      · have hd : ¬Readable d := fun h => absurd h.1 (Nat.not_le.2 hLong)
        simp [hLong, hd]
      · by_cases hFast : Policy.maxFastFactor < digitsValue d
        · have hd : ¬Readable d := fun h => absurd h.2 (Nat.not_le.2 hFast)
          simp [hLong, hFast, hd]
        · have hd : Readable d := ⟨Nat.not_lt.1 hLong, Nat.not_lt.1 hFast⟩
          simp only [hLong, hFast, if_false, ih, List.forall_mem_cons, hd, true_and]

theorem dangerIssues_eq_nil_iff (code : Text) :
    dangerIssues code = .ok [] ↔
      (∀ digits ∈ Measure.fastFactors code, Readable digits) ∧
      Measure.hasNinthOctave code = false := by
  rw [← exceedsFactor_eq_false_iff]
  unfold dangerIssues
  cases exceedsFactor (Measure.fastFactors code) with
  | error error => simp [Except.map]
  | ok tooFast => simp [Except.map, issueIf_eq_nil_iff]

/-- Code is judged valid exactly when it passes all rules. -/
theorem validate_eq_valid_iff (p : Policy) (code : Text) :
    validate p code = .ok ⟨[]⟩ ↔ Lasting p code ∧ Exposed p code := by
  have hParts : validate p code = .ok ⟨[]⟩ ↔
      measuredIssues p code = [] ∧ dangerIssues code = .ok [] := by
    unfold validate issues
    cases dangerIssues code with
    | error error => simp [Except.map]
    | ok danger => simp [Except.map]
  rw [hParts, dangerIssues_eq_nil_iff]
  simp only [measuredIssues, balanceIssues, methodIssues, List.append_eq_nil_iff,
    issueIf_eq_nil_iff, List.map_eq_nil_iff, decide_eq_false_iff_not, Nat.not_lt,
    Bool.and_eq_false_imp, Bool.not_eq_false']
  constructor
  · rintro ⟨⟨⟨⟨⟨⟨⟨⟨⟨⟨hVoices, hLong⟩, hShort⟩, hTempo⟩, hSamples⟩, hRandom⟩, hEffects⟩, hBalanced,
      hGroups⟩, hMethods, hStrings⟩, hFew⟩, hSlow, hLow⟩
    exact ⟨⟨hVoices, hTempo, hBalanced⟩, ⟨hLong, hShort, hSamples, hRandom, hEffects, hGroups,
      hMethods, hStrings, hFew, hSlow, hLow⟩⟩
  · rintro ⟨⟨hVoices, hTempo, hBalanced⟩, ⟨hLong, hShort, hSamples, hRandom, hEffects, hGroups,
      hMethods, hStrings, hFew, hSlow, hLow⟩⟩
    exact ⟨⟨⟨⟨⟨⟨⟨⟨⟨⟨hVoices, hLong⟩, hShort⟩, hTempo⟩, hSamples⟩, hRandom⟩, hEffects⟩, hBalanced,
      hGroups⟩, hMethods, hStrings⟩, hFew⟩, hSlow, hLow⟩

/-- Undoing escapes keeps the rules that it never breaks. -/
theorem Lasting.undo {p : Policy} {code : Text} (h : Lasting p code) :
    Lasting p (Escapes.undo code) where
  fewVoices := (Escapes.voices_undo code).symm ▸ h.fewVoices
  tempo := fun hRequired => Escapes.setsTempo_undo code (h.tempo hRequired)
  balanced := (Escapes.unbalanced_undo code).trans h.balanced

end Validation

end Composer
