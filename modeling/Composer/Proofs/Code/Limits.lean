import Composer.Proofs.Code.Leniency

/-!
Rules with a limit. Each of them has its own check, and no other check finds it broken, so in code
that can be judged it is broken exactly where the limit is exceeded.
-/

namespace Composer

namespace Validation

theorem mem_map_rule_issueIf {fails : Bool} {issue : Issue} {rule : Rule} :
    rule ∈ (issueIf fails issue).map Issue.rule ↔ fails ∧ rule = issue.rule := by
  cases fails <;> simp [issueIf]

theorem rule_balanceIssues (code : Text) : ∀ issue ∈ balanceIssues code, issue.rule = .balance := by
  intro issue hIssue
  rcases List.mem_append.1 hIssue with hBracket | hGroup
  · obtain ⟨found, -, rfl⟩ := List.mem_map.1 hBracket
    rfl
  · obtain ⟨found, -, rfl⟩ := List.mem_map.1 hGroup
    rfl

theorem rule_methodIssues (code : Text) : ∀ issue ∈ methodIssues code, issue.rule = .methods := by
  intro issue hIssue
  rcases List.mem_append.1 hIssue with hMethod | hString
  · obtain ⟨method, -, rfl⟩ := List.mem_map.1 hMethod
    rfl
  · exact (mem_map_rule_issueIf.1 (List.mem_map_of_mem hString)).2

theorem rule_dangerIssues {code : Text} {danger : List Issue} (h : dangerIssues code = .ok danger) :
    ∀ issue ∈ danger, issue.rule = .danger := by
  intro issue hIssue
  unfold dangerIssues at h
  cases hFast : exceedsFactor (Measure.fastFactors code) with
  | error error =>
      rw [hFast] at h
      cases h
  | ok tooFast =>
      rw [hFast] at h
      obtain rfl := Except.ok.inj h
      rcases List.mem_append.1 hIssue with hFactor | hNote
      · exact (mem_map_rule_issueIf.1 (List.mem_map_of_mem hFactor)).2
      · exact (mem_map_rule_issueIf.1 (List.mem_map_of_mem hNote)).2

/-- Of the rules with a limit each is broken where its limit is exceeded. -/
theorem breaks_limit_iff {p : Policy} {code : Text} {found : List Issue}
    (hJudged : issues p code = .ok found) :
    (Breaks p code .voices ↔ p.maxVoices < Measure.voices code) ∧
    (Breaks p code .randomness ↔ p.maxRandomUsage < Measure.randomUses code) ∧
    (Breaks p code .strength ↔ Measure.hasExtremeEffects p code) ∧
    (Breaks p code .density ↔ p.maxEffectsPerVoice < Measure.maxEffectsOnVoice code) := by
  obtain ⟨danger, hDanger⟩ : ∃ danger, dangerIssues code = .ok danger := by
    unfold issues at hJudged
    cases hDanger : dangerIssues code with
    | error error =>
        rw [hDanger] at hJudged
        cases hJudged
    | ok danger => exact ⟨danger, rfl⟩
  have hBreaks (rule : Rule) : Breaks p code rule ↔
      rule ∈ (measuredIssues p code ++ danger).map Issue.rule := by
    rw [Breaks, issues_of_dangerIssues hDanger]
    exact ⟨fun ⟨_, hFound, hRule⟩ => Except.ok.inj hFound ▸ hRule, fun hRule => ⟨_, rfl, hRule⟩⟩
  have hOther {rule other : Rule} (hne : rule ≠ other) {list : List Issue}
      (hRule : ∀ issue ∈ list, issue.rule = other) : rule ∉ list.map Issue.rule := by
    intro hMem
    obtain ⟨issue, hIssue, rfl⟩ := List.mem_map.1 hMem
    exact hne (hRule issue hIssue)
  simp only [hBreaks, measuredIssues, List.map_append, List.mem_append, mem_map_rule_issueIf]
  simp [hOther _ (rule_balanceIssues code), hOther _ (rule_methodIssues code),
    hOther _ (rule_dangerIssues hDanger), Issue.rule]

end Validation

end Composer
