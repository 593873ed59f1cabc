import Composer.Proofs.Code.Rules
import Composer.Proofs.Generation.Release
import Composer.Proofs.Prompt.Retry

/-!
What a run decides, told from the two answers of the provider alone. `Ending.ofAnswers` has no
cursors and no stages on the way; a run that reads everything ends as it says. The second request
names every issue of the first answer, and stays an edit if the request was one.

Code that was judged valid may still be refused when it is handed out, but only for its first line
or for want of a voice.
-/

namespace Composer

/-- What the provider says to a request in the end: a whole text, or what it raised. -/
def Delivery.answer : Delivery → Except Raised Text
  | refused error => .error error
  | opened _ (some error) _ => .error error
  | opened texts none _ => .ok texts.flatten

/-- What a run comes to: its last stage, the outcome or the failure, what was raised, and the system
prompt and the user prompt of every request. -/
structure Ending where
  stage : Stage
  outcome : Option Extraction
  error : Option TaskError
  raised : Option TaskFault
  asked : List (Text × Text)

namespace Ending

def failed (asked : List (Text × Text)) (error : TaskError) : Ending :=
  ⟨.failed, none, some error, none, asked⟩

/-- A complete answer is handed out if it can be parsed. -/
def handOut (asked : List (Text × Text)) (target : Stage) (text : Text) : Ending :=
  match Extraction.parse text with
  | .success code response => ⟨target, some (.success code response), none, none, asked⟩
  | .failure message _ => failed asked (.extraction message text)

/-- The second answer is handed out without a judgement. -/
def ofSecond (asked : List (Text × Text)) : Except Raised Text → Ending
  | .error raised => failed asked (.provider (.classify raised))
  | .ok text => handOut asked .done text

/-- The first answer is handed out when its code is judged valid, and asked for again when it is
not; without code there is nothing to judge. -/
def ofAnswers (p : PreparedRequest) (policy : Policy) (references : Option ReferenceSource)
    (first second : Except Raised Text) : Ending :=
  let once := [(p.systemPrompt, p.userPrompt)]
  match first with
  | .error raised => failed once (.provider (.classify raised))
  | .ok text =>
    match Response.artifact text with
    | .error fault => failed once (.extraction fault.message text)
    | .ok code =>
      match validate policy code with
      | .error fault => ⟨.validating, none, none, some (.validation fault), once⟩
      | .ok verdict =>
        if verdict.valid then handOut once .accepted text
        else ofSecond (once ++ [(p.systemPrompt, p.retryPrompt references verdict.issues)]) second

theorem asked_handOut (asked : List (Text × Text)) (target : Stage) (text : Text) :
    (handOut asked target text).asked = asked := by
  unfold handOut
  split <;> rfl

theorem asked_ofSecond (asked : List (Text × Text)) (answer : Except Raised Text) :
    (ofSecond asked answer).asked = asked := by
  cases answer with
  | error raised => rfl
  | ok text => exact asked_handOut asked .done text

end Ending

namespace Task

/-- The ending of a task after which something may have been raised. -/
def endingWith (t : Task) (raised : Option TaskFault) : Ending :=
  ⟨t.stage, t.outcome, t.error, raised, t.askedPrompts.map fun u => (t.prepared.systemPrompt, u)⟩

section
variable {base : Task}

theorem Complete.answer_eq {before : List Attempt} {a : Attempt}
    (hComplete : Complete base before a) : (base.deliveries before.length).answer = .ok a.text := by
  obtain ⟨leaving, hDelivered⟩ := hComplete.delivered
  rw [hDelivered]
  rfl

theorem BreaksOff.answer_eq {before : List Attempt} {a : Attempt} {error : Raised}
    (hBreaks : BreaksOff base before a error) :
    (base.deliveries before.length).answer = .error error := by
  cases hBreaks with
  | refused hDelivery hChunks hPlayback => rw [hDelivery]; rfl
  | streamed leaving hDelivery hPlayback => rw [hDelivery]; rfl

/-- The prompts of a first attempt that is over. -/
theorem askedPrompts_first {stage : Stage} {a : Attempt} {outcome : Option Extraction}
    {error : Option TaskError} (hBegun : Begun base [] a) (hOver : a.playback.isOver) :
    (base.standing stage [a] outcome error).askedPrompts = [base.prepared.userPrompt] := by
  have hRequested := Playback.isRequested_of_isOver hOver
  simp [askedPrompts, standing, hRequested, hBegun.prompt, promptAfter]

/-- The prompts of a first attempt that was rejected, and of the second one that is over. -/
theorem askedPrompts_second {stage : Stage} {a b : Attempt} {outcome : Option Extraction}
    {error : Option TaskError} {code : Text} {verdict : Verdict}
    (hJudged : Judged base a code verdict) (hBegun : Begun base [a] b)
    (hOver : b.playback.isOver) :
    (base.standing stage [a, b] outcome error).askedPrompts =
      [base.prepared.userPrompt, base.prepared.retryPrompt base.references verdict.issues] := by
  have hSecond := Playback.isRequested_of_isOver hOver
  have hFirst := Playback.isRequested_of_isOver hJudged.complete.isOver
  simp [askedPrompts, standing, hFirst, hSecond, hJudged.begun.prompt, hBegun.prompt,
    promptAfter, hJudged.recorded]

/-- The decision on a first answer that was judged. -/
theorem Judged.ofAnswers_eq {a : Attempt} {code : Text} {verdict : Verdict}
    (hJudged : Judged base a code verdict) (second : Except Raised Text) :
    Ending.ofAnswers base.prepared base.policy base.references (base.deliveries 0).answer second =
      if verdict.valid then
        .handOut [(base.prepared.systemPrompt, base.prepared.userPrompt)] .accepted a.text
      else
        .ofSecond [(base.prepared.systemPrompt, base.prepared.userPrompt),
          (base.prepared.systemPrompt,
            base.prepared.retryPrompt base.references verdict.issues)] second := by
  have hAnswer : (base.deliveries 0).answer = .ok a.text := hJudged.complete.answer_eq
  simp [Ending.ofAnswers, hAnswer, hJudged.extracted, hJudged.validated]

/-- The ending of a task that was left standing, when its prompts are known. -/
theorem endingWith_standing {stage : Stage} {attempts : List Attempt} {outcome : Option Extraction}
    {error : Option TaskError} {raised : Option TaskFault} {prompts : List Text}
    (hAsked : (base.standing stage attempts outcome error).askedPrompts = prompts) :
    (base.standing stage attempts outcome error).endingWith raised =
      ⟨stage, outcome, error, raised, prompts.map fun u => (base.prepared.systemPrompt, u)⟩ := by
  rw [endingWith, hAsked]
  rfl

/-- An attempt that passed ends the task as its text decides. -/
theorem Passed.handOut_eq {before : List Attempt} {prior : List Event} {a : Attempt}
    {target : Stage} (hOpening : Opening base before prior)
    (hPassed : Passed base before a target) :
    Ending.ofAnswers base.prepared base.policy base.references (base.deliveries 0).answer
      (base.deliveries 1).answer =
    .handOut ((base.standing target (before ++ [a]) none none).askedPrompts.map fun u =>
      (base.prepared.systemPrompt, u)) target a.text := by
  cases hPassed with
  | judged hJudged hValid =>
      rw [hJudged.ofAnswers_eq, if_pos hValid, List.nil_append,
        askedPrompts_first hJudged.begun hJudged.complete.isOver]
      rfl
  | unjudged hBegun hComplete hVerdict =>
      have hAnswer : (base.deliveries 1).answer = .ok a.text := hComplete.answer_eq
      cases hOpening with
      | second hJudged hInvalid =>
          rw [hJudged.ofAnswers_eq, if_neg (by simp [hInvalid]), hAnswer, List.singleton_append,
            askedPrompts_second hJudged hBegun hComplete.isOver]
          rfl

/-- Every history that is at its end ends as the two answers decide. -/
theorem History.endingWith_eq {t : Task} {events : List Event} {raised : Option TaskFault}
    (hHistory : History base t .over events raised) :
    t.endingWith raised = Ending.ofAnswers base.prepared base.policy base.references
      (base.deliveries 0).answer (base.deliveries 1).answer := by
  cases hHistory with
  | @brokenOff before prior a error hOpening hBegun hVerdict hBreaks =>
      have hAnswer := hBreaks.answer_eq
      cases hOpening with
      | first =>
          rw [List.nil_append, endingWith_standing (askedPrompts_first hBegun hBreaks.isOver)]
          change (base.deliveries 0).answer = _ at hAnswer
          rw [hAnswer]
          rfl
      | second hJudged hInvalid =>
          rw [List.singleton_append,
            endingWith_standing (askedPrompts_second hJudged hBegun hBreaks.isOver)]
          change (base.deliveries 1).answer = _ at hAnswer
          rw [hJudged.ofAnswers_eq, if_neg (by simp [hInvalid]), hAnswer]
          rfl
  | @unextracted a fault hBegun hVerdict hComplete hArtifact =>
      have hAnswer : (base.deliveries 0).answer = .ok a.text := hComplete.answer_eq
      rw [endingWith_standing (askedPrompts_first hBegun hComplete.isOver), hAnswer]
      simp [Ending.ofAnswers, hArtifact, Ending.failed]
  | @unjudged a code error hBegun hVerdict hComplete hArtifact hValidate =>
      have hAnswer : (base.deliveries 0).answer = .ok a.text := hComplete.answer_eq
      rw [endingWith_standing (askedPrompts_first hBegun hComplete.isOver), hAnswer]
      simp [Ending.ofAnswers, hArtifact, hValidate]
  | @finished before prior a target code hOpening hPassed hFinished =>
      rw [hPassed.handOut_eq hOpening]
      simp [Ending.handOut, Extraction.parse, Extraction.ofAttempt, hFinished, endingWith, standing,
        askedPrompts]
  | @unfinished before prior a target fault hOpening hPassed hFinished =>
      rw [hPassed.handOut_eq hOpening]
      simp [Ending.handOut, Extraction.parse, Extraction.ofAttempt, hFinished, endingWith, standing,
        askedPrompts, Ending.failed]

end

end Task

/-- A fault of how code begins or of what it declares, which judging code does not look for. -/
def StructureFault.IsUnjudged : StructureFault → Prop
  | noLeadingTempo _ => True
  | noVoice => True
  | noStatements => False
  | unbalanced .. => False

/-- Code that was judged valid has enough lines, and its brackets balance. -/
theorem Validation.isUnjudged_of_valid {p : Policy} {code : Text} {fault : StructureFault}
    (hValid : validate p code = .ok ⟨[]⟩) (hFault : structureFault? code = some fault) :
    fault.IsUnjudged := by
  obtain ⟨hLasting, hExposed⟩ := (validate_eq_valid_iff p code).1 hValid
  unfold structureFault? at hFault
  rw [hLasting.balanced] at hFault
  split at hFault
  · next hLines =>
      have hShort := hExposed.notTooShort
      simp only [Measure.lineCount, hLines, Policy.minLines] at hShort
      exact absurd hShort (by decide)
  · next line rest hLines =>
      split at hFault
      · exact Option.some.inj hFault ▸ trivial
      · split at hFault
        · exact Option.some.inj hFault ▸ trivial
        · exact absurd hFault (by simp)

/-- Code that was judged valid is handed out, freed of its escapes, unless its first line does not
set the tempo or it has no voice. -/
theorem Extraction.parse_of_valid {p : Policy} {text code : Text}
    (hFound : Response.artifact text = .ok code) (hValid : validate p code = .ok ⟨[]⟩) :
    parse text = .success (Escapes.undo code) none ∨
      ∃ fault : StructureFault, fault.IsUnjudged ∧
        parse text = .failure fault.message (some text) := by
  cases hStructure : structureFault? code with
  | none =>
      have hFinished : Response.finishedArtifact text = .ok (Escapes.undo code) :=
        (Response.finishedArtifact_eq_ok_iff text _).2 ⟨code, hFound, hStructure, rfl⟩
      left
      rw [parse, hFinished, ofAttempt]
  | some fault =>
      have hFinished : Response.finishedArtifact text = .error (.structural fault) := by
        simp only [Response.finishedArtifact, hFound, hStructure]
      right
      refine ⟨fault, Validation.isUnjudged_of_valid hValid hStructure, ?_⟩
      rw [parse, hFinished]
      rfl

namespace Task

/-- A run that reads everything ends as the two answers of the provider decide. -/
theorem endingWith_drain (prepared : PreparedRequest) (policy : Policy)
    (references : Option ReferenceSource) (deliveries : Deliveries) :
    (fresh prepared policy references deliveries).drain.task.endingWith
        (fresh prepared policy references deliveries).drain.raised =
      Ending.ofAnswers prepared policy references (deliveries 0).answer (deliveries 1).answer :=
  (drain_history prepared policy references deliveries).endingWith_eq

/-- A run that reads everything ends as the two answers of the provider decide. A second request
lists every issue of the first answer, and is an edit exactly when the request is served as one. A
first answer that was judged valid fails only for how its code begins or for want of a voice. -/
theorem drain_decides (prepared : PreparedRequest) (policy : Policy)
    (references : Option ReferenceSource) (deliveries : Deliveries) :
    (fresh prepared policy references deliveries).drain.task.endingWith
        (fresh prepared policy references deliveries).drain.raised =
      Ending.ofAnswers prepared policy references (deliveries 0).answer (deliveries 1).answer ∧
    (∀ issues, prepared.request.AskedAgain issues (prepared.retryPrompt references issues)) ∧
    ∀ text code, Response.artifact text = .ok code → validate policy code = .ok ⟨[]⟩ →
      Extraction.parse text = .success (Escapes.undo code) none ∨
        ∃ fault : StructureFault, fault.IsUnjudged ∧
          Extraction.parse text = .failure fault.message (some text) := by
  refine ⟨?_, prepared.askedAgain_retryPrompt references, ?_⟩
  · exact endingWith_drain prepared policy references deliveries
  · intro text code hFound hValid
    exact Extraction.parse_of_valid hFound hValid

end Task

end Composer
