import Composer.Proofs.Code.Judgement

/-!
More lenient policies. A policy relaxes another when no limit of it is lower and it requires nothing
more; the limits of strength are compared as numbers, infinity included. Code then breaks no other
rule than before and has at most as many issues, although the issues that stay may name other
limits. So it is the rules that are compared here, and not the sentences.
-/

namespace Composer

/-- The content rules. -/
inductive Rule where
  | voices
  | length
  | tempo
  | samples
  | randomness
  | strength
  | balance
  | methods
  | density
  | danger
  deriving DecidableEq, Repr

/-- The rule that is broken where an issue is found. -/
def Issue.rule : Issue → Rule
  | tooManyVoices .. => .voices
  | tooLong .. => .length
  | tooShort => .length
  | noTempo => .tempo
  | foreignSamples => .samples
  | tooRandom .. => .randomness
  | extremeEffects .. => .strength
  | unbalanced .. => .balance
  | unbalancedGroups .. => .balance
  | unsupportedMethod _ => .methods
  | methodOnString => .methods
  | tooManyEffects _ => .density
  | tooFast => .danger
  | tooHigh => .danger

/-- A policy that allows whatever another one allows. -/
structure Policy.Relaxes (q p : Policy) : Prop where
  voices : p.maxVoices ≤ q.maxVoices
  lines : p.maxLines ≤ q.maxLines
  randomUsage : p.maxRandomUsage ≤ q.maxRandomUsage
  effects : p.maxEffectsPerVoice ≤ q.maxEffectsPerVoice
  tempo : q.requireTempo → p.requireTempo
  samples : q.rejectForeignSamples → p.rejectForeignSamples
  delayFeedback : p.maxDelayFeedback.le q.maxDelayFeedback
  roomSize : p.maxRoomSize.le q.maxRoomSize

/-- What exceeds a number exceeds every lesser one. -/
theorem Binary64.lt_of_le_of_lt {a b x : Binary64} (hle : a.le b) (hlt : b.lt x) : a.lt x := by
  cases a with
  | nan => exact absurd hle (by simp [le])
  | signed s r =>
      cases b with
      | nan => exact absurd hlt (by simp [lt])
      | signed t q =>
          cases x with
          | nan => exact absurd hlt (by simp [lt])
          | signed u k =>
              simp only [le, lt, decide_eq_true_eq] at hle hlt ⊢
              omega

theorem Binary64.lt_trans_le {a b x : Binary64} (hlt : a.lt b) (hle : b.le x) : a.lt x := by
  cases b with
  | nan => exact absurd hle (by simp [le])
  | signed t q =>
      cases a with
      | nan => exact absurd hlt (by simp [lt])
      | signed s r =>
          cases x with
          | nan => exact absurd hle (by simp [le])
          | signed u k =>
              simp only [le, lt, decide_eq_true_eq] at hle hlt ⊢
              omega

namespace Validation

/-- Whether an issue is found under a policy where this rule is broken. -/
def Breaks (p : Policy) (code : Text) (rule : Rule) : Prop :=
  ∃ found, issues p code = .ok found ∧ rule ∈ found.map Issue.rule

/-- A check that fails less often adds less. -/
theorem map_rule_issueIf_sublist {fails lenient : Bool} {issue same : Issue}
    (hFails : lenient → fails) (hRule : same.rule = issue.rule) :
    ((issueIf lenient same).map Issue.rule).Sublist ((issueIf fails issue).map Issue.rule) := by
  cases lenient with
  | false => exact List.nil_sublist _
  | true =>
      rw [hFails rfl]
      simp [issueIf, hRule]

theorem map_rule_issueIf_lt_sublist {limit wider count : Nat} {issue same : Issue}
    (hWider : limit ≤ wider) (hRule : same.rule = issue.rule) :
    ((issueIf (wider < count) same).map Issue.rule).Sublist
      ((issueIf (limit < count) issue).map Issue.rule) := by
  apply map_rule_issueIf_sublist _ hRule
  intro hFails
  rw [decide_eq_true_eq] at hFails ⊢
  exact hWider.trans_lt hFails

section
variable {p q : Policy} (h : q.Relaxes p)
include h

theorem hasExtremeEffects_of_relaxes {code : Text} (hExtreme : Measure.hasExtremeEffects q code) :
    Measure.hasExtremeEffects p code := by
  have hAny {ceiling wider : Binary64} (hWider : ceiling.le wider) {found : List Binary64}
      (hFound : found.any wider.lt) : found.any ceiling.lt := by
    rw [List.any_eq_true] at hFound ⊢
    obtain ⟨x, hx, hExceeds⟩ := hFound
    exact ⟨x, hx, Binary64.lt_of_le_of_lt hWider hExceeds⟩
  simp only [Measure.hasExtremeEffects, Bool.or_eq_true] at hExtreme ⊢
  rcases hExtreme with (hFeedback | hRoom) | hGain
  · exact .inl (.inl (hAny h.delayFeedback hFeedback))
  · exact .inl (.inr (hAny h.roomSize hRoom))
  · exact .inr hGain

/-- The rules that a code breaks under the more lenient policy, in order, are some of those that it
breaks under the other. -/
theorem map_rule_measuredIssues_sublist (code : Text) :
    ((measuredIssues q code).map Issue.rule).Sublist
      ((measuredIssues p code).map Issue.rule) := by
  simp only [measuredIssues, List.map_append]
  refine .append (.append (.append (.append (.append (.append (.append (.append (.append
    ?voices ?long) ?short) ?tempo) ?samples) ?random) ?strength) (.refl _)) (.refl _)) ?density
  case voices => exact map_rule_issueIf_lt_sublist h.voices rfl
  case long => exact map_rule_issueIf_lt_sublist h.lines rfl
  case short => exact map_rule_issueIf_sublist id rfl
  case tempo =>
    apply map_rule_issueIf_sublist _ rfl
    intro hFails
    rw [Bool.and_eq_true] at hFails ⊢
    exact ⟨h.tempo hFails.1, hFails.2⟩
  case samples =>
    apply map_rule_issueIf_sublist _ rfl
    intro hFails
    rw [Bool.and_eq_true] at hFails ⊢
    exact ⟨h.samples hFails.1, hFails.2⟩
  case random => exact map_rule_issueIf_lt_sublist h.randomUsage rfl
  case strength => exact map_rule_issueIf_sublist (hasExtremeEffects_of_relaxes h) rfl
  case density => exact map_rule_issueIf_lt_sublist h.effects rfl

/-- Relaxing a policy only mends. Code that is judged under the policy is judged under the more
lenient one; the rules that it breaks there it also breaks here, it has at most as many issues, and
it stays valid if it was. -/
theorem relaxing_only_mends {code : Text} {verdict : Verdict}
    (hJudged : validate p code = .ok verdict) :
    ∃ relaxed, validate q code = .ok relaxed ∧
      (∀ rule, Breaks q code rule → Breaks p code rule) ∧
      relaxed.issues.length ≤ verdict.issues.length ∧
      (verdict.valid → relaxed.valid) := by
  obtain ⟨danger, hDanger, rfl⟩ := exists_dangerIssues_of_validate hJudged
  have hFound := issues_of_dangerIssues hDanger p
  have hFewer := issues_of_dangerIssues hDanger q
  have hSublist : ((measuredIssues q code ++ danger).map Issue.rule).Sublist
      ((measuredIssues p code ++ danger).map Issue.rule) := by
    rw [List.map_append, List.map_append]
    exact (map_rule_measuredIssues_sublist h code).append (.refl _)
  have hLength := hSublist.length_le
  simp only [List.length_map] at hLength
  have hRelaxed : validate q code =
      .ok ⟨(measuredIssues q code ++ danger).map Issue.message⟩ := by
    unfold validate
    rw [hFewer]
    rfl
  refine ⟨_, hRelaxed, ?rules, by simpa only [List.length_map] using hLength, ?valid⟩
  case rules =>
    rintro rule ⟨others, hOthers, hRule⟩
    obtain rfl := Except.ok.inj (hFewer.symm.trans hOthers)
    exact ⟨_, hFound, hSublist.subset hRule⟩
  case valid =>
    intro hValid
    simp only [Verdict.valid, List.isEmpty_iff, List.map_eq_nil_iff] at hValid ⊢
    rw [hValid, List.length_nil] at hLength
    exact List.eq_nil_of_length_eq_zero (Nat.le_zero.1 hLength)

end

/-- A policy without a ceiling for rooms, and without a tempo of its own. -/
def roomyPolicy : Policy :=
  { Policy.standard with maxRoomSize := .infinity false, requireTempo := false }

def roomyCode : Text := "$: s(\"bd\").room(40)\n$: s(\"hh\").room(4)"

/-- Two issues of three are mended, and one rule is broken in either case. -/
theorem relaxing_only_mends_of_roomy :
    roomyPolicy.Relaxes Policy.standard ∧
    ∃ verdict, validate Policy.standard roomyCode = .ok verdict ∧ verdict.issues.length = 3 ∧
    ∃ relaxed, validate roomyPolicy roomyCode = .ok relaxed ∧
      (∀ rule, Breaks roomyPolicy roomyCode rule → Breaks Policy.standard roomyCode rule) ∧
      relaxed.issues.length ≤ verdict.issues.length ∧
      (verdict.valid → relaxed.valid) := by
  have hRelaxes : roomyPolicy.Relaxes Policy.standard := by
    constructor <;> decide
  have hJudged : validate Policy.standard roomyCode = .ok
      ⟨[Issue.tooShort, .noTempo, .extremeEffects (.ofDecimal false 7 (-1))
        (.ofDecimal false 95 (-2))].map Issue.message⟩ :=
    eq_ok_of_toOption (by decide +kernel)
  exact ⟨hRelaxes, _, hJudged, rfl, relaxing_only_mends hRelaxes hJudged⟩

end Validation

end Composer
