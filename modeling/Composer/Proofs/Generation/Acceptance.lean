import Composer.Proofs.Code.Rules
import Composer.Proofs.Generation.Drain

/-!
Code that is accepted. The code of the first answer is judged as it stands there, and what is handed
out is that code freed of its escapes: the rules on voices, tempo and brackets still hold of it, and
it satisfies the policy exactly when the other rules do too. Without backslashes in it the code is
handed out as it was judged.
-/

namespace Composer

namespace Task

/-- What an accepted run hands out: code that was found in a complete first answer and judged valid,
freed of its escapes. -/
structure HandsOut (t : Task) (found : Text) : Prop where
  answered : ∃ texts leaving, t.deliveries 0 = .opened texts none leaving ∧
    Response.artifact texts.flatten = .ok found
  judged : validate t.policy found = .ok ⟨[]⟩
  structured : structureFault? found = none
  outcome : t.outcome = some (.success (Escapes.undo found) none)

section
variable {base : Task}

theorem Judged.validate_eq_valid {a : Attempt} {code : Text} {verdict : Verdict}
    (hJudged : Judged base a code verdict) (hValid : verdict.valid = true) :
    validate base.policy code = .ok ⟨[]⟩ := by
  have hVerdict : verdict = ⟨[]⟩ := by
    cases verdict with
    | mk issues => exact congrArg Verdict.mk (List.isEmpty_iff.1 hValid)
  rw [hJudged.validated, hVerdict]

theorem History.policy_eq {t : Task} {cursor : Cursor} {events : List Event}
    {raised : Option TaskFault} (hHistory : History base t cursor events raised) :
    t.policy = base.policy := by
  cases hHistory <;> rfl

/-- A history that ends in acceptance hands out code of the first answer. -/
theorem History.handsOut {t : Task} {cursor : Cursor} {events : List Event}
    {raised : Option TaskFault} (hHistory : History base t cursor events raised)
    (hAccepted : t.stage = .accepted) : ∃ found, t.HandsOut found := by
  cases hHistory with
  | @finished before prior a target code hOpening hPassed hFinished =>
      cases hPassed with
      | unjudged hBegun hComplete hVerdict => exact Stage.noConfusion hAccepted
      | @judged _ found verdict hJudged hValid =>
          obtain ⟨leaving, hDelivered⟩ := hJudged.complete.delivered
          obtain ⟨code', hFound, hStructure, rfl⟩ :=
            (Response.finishedArtifact_eq_ok_iff a.text code).1 hFinished
          obtain rfl := Except.ok.inj (hFound.symm.trans hJudged.extracted)
          exact ⟨code', ⟨a.chunks, leaving, hDelivered, hFound⟩, hJudged.validate_eq_valid hValid,
            hStructure, rfl⟩
  | unread => exact Stage.noConfusion hAccepted
  | streaming => exact Stage.noConfusion hAccepted
  | brokenOff => exact Stage.noConfusion hAccepted
  | unextracted => exact Stage.noConfusion hAccepted
  | unjudged => exact Stage.noConfusion hAccepted
  | announced => exact Stage.noConfusion hAccepted
  | cleared => exact Stage.noConfusion hAccepted
  | unfinished => exact Stage.noConfusion hAccepted

end

/-- An accepted run hands out code that satisfies its policy exactly when the rules that undoing
escapes may break hold of it; so it does when there are no backslashes in the code that was
judged. -/
theorem accepted_code_valid_iff (prepared : PreparedRequest) (policy : Policy)
    (references : Option ReferenceSource) (deliveries : Deliveries)
    (hAccepted : (fresh prepared policy references deliveries).drain.task.stage = .accepted) :
    ∃ found, (fresh prepared policy references deliveries).drain.task.HandsOut found ∧
      (validate policy (Escapes.undo found) = .ok ⟨[]⟩ ↔
        Validation.Exposed policy (Escapes.undo found)) ∧
      ('\\' ∉ found → validate policy (Escapes.undo found) = .ok ⟨[]⟩) := by
  have hHistory := drain_history prepared policy references deliveries
  obtain ⟨found, hHandsOut⟩ := hHistory.handsOut hAccepted
  have hPolicy : (fresh prepared policy references deliveries).drain.task.policy = policy :=
    hHistory.policy_eq
  have hJudged := hHandsOut.judged
  rw [hPolicy] at hJudged
  have hLasting := ((Validation.validate_eq_valid_iff policy found).1 hJudged).1.undo
  refine ⟨found, hHandsOut, ?_, fun hPlain => ?_⟩
  · rw [Validation.validate_eq_valid_iff]
    exact ⟨fun h => h.2, fun h => ⟨hLasting, h⟩⟩
  · rw [Escapes.undo_eq_self hPlain]
    exact hJudged

/-- Code that loads samples from an address, which a backslash hides from the rule on samples. -/
def loaderCode : Text :=
  "setcpm(90)\n$: s(\"bd\")\n$: s(\"hh\")\n$: s(\"sd\")\nsamples(\\\"https://x\\\")"

def loaderRun : Task :=
  fresh ⟨⟨some "techno", .new, none, [], none, some "sk-ant-test"⟩, "claude-sonnet-4-5", .anthropic,
    "sk-ant-test", [], "techno"⟩ .standard none
    (Deliveries.ofList [.streamed [loaderCode] none] (.other "ConnectionError" "no further answer"))

/-- The run is accepted, so the theorem says what it hands out. -/
theorem accepted_code_valid_iff_of_loader :
    loaderRun.drain.task.stage = .accepted ∧
    ∃ found, loaderRun.drain.task.HandsOut found ∧
      (validate .standard (Escapes.undo found) = .ok ⟨[]⟩ ↔
        Validation.Exposed .standard (Escapes.undo found)) ∧
      ('\\' ∉ found → validate .standard (Escapes.undo found) = .ok ⟨[]⟩) := by
  have hAccepted : loaderRun.drain.task.stage = .accepted := by decide +kernel
  exact ⟨hAccepted, accepted_code_valid_iff _ _ _ _ hAccepted⟩

/-- The accepted code loads samples from an address, which the policy of the run forbids. -/
theorem accepted_code_loads_foreign_samples :
    loaderRun.drain.task.stage = .accepted ∧
    loaderRun.drain.task.outcome = some (.success (Escapes.undo loaderCode) none) ∧
    (validate loaderRun.policy (Escapes.undo loaderCode)).toOption =
      some ⟨["uses external/localhost samples - only use built-in samples"]⟩ := by
  decide +kernel

end Task

end Composer
