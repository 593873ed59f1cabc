import Composer.Proofs.Generation.Decision
import Composer.Proofs.Provider.Contents

/-!
What a user is told when the gateway raises. An exception is sorted by its class and its message, or
the name of its class when it has no message; but a task sees only a failed inference with the
message. The diagnosis is the same for whatever has a message and was not sorted before. It is lost
for an exception without a message, and for one that was sorted as a matter of the credential or of
the model. Sorting what was sorted changes nothing.
-/

namespace Composer

namespace Raised

/-- Exceptions that are told as much by their message as by themselves. -/
def KeepsDiagnosis : Raised → Prop
  | sorted (.auth _) => False
  | sorted (.model _) => False
  | sorted (.inference _) => True
  | other kind message => message ≠ [] ∨ kind = "LLMInferenceError"

theorem isEmpty_kindName_sorted (error : ProviderError) :
    (sorted error).kindName.isEmpty = false := by
  cases error with
  | auth m => rfl
  | model m => rfl
  | inference m => rfl

theorem description_eq_nil_iff {error : Raised} :
    error.description = [] ↔ error = .other [] [] := by
  constructor
  · intro h
    unfold description at h
    split at h
    · next hEmpty =>
        cases error with
        | sorted sorted =>
            exact absurd (List.isEmpty_iff.2 h) (by simp [isEmpty_kindName_sorted])
        | other kind message =>
            obtain rfl : kind = [] := h
            obtain rfl : message = [] := List.isEmpty_iff.1 hEmpty
            rfl
    · next hFilled => exact absurd (List.isEmpty_iff.2 h) hFilled
  · rintro rfl
    rfl

end Raised

namespace ProviderError

open Gateway (reported)

theorem ofMessage_eq_auth {m t : Text} (h : ofMessage m = auth t) :
    t = "This API key does not exist. Please check your API key in Settings." := by
  unfold ofMessage at h
  split at h
  · exact (auth.inj h).symm
  · split at h <;> exact nomatch h

theorem ofMessage_eq_model {m t : Text} (h : ofMessage m = model t) :
    t = "Model error: " ++ m ++ ". Please select a valid model in Settings." := by
  unfold ofMessage at h
  split at h
  · exact nomatch h
  · split at h
    · exact (model.inj h).symm
    · exact nomatch h

theorem ofMessage_eq_inference {m t : Text} (h : ofMessage m = inference t) : t = m := by
  unfold ofMessage at h
  split at h
  · exact nomatch h
  · split at h
    · exact nomatch h
    · exact (inference.inj h).symm

theorem classify_reported (error : Raised) : classify (reported error) =
    ofMessage (if error.message.isEmpty then "LLMInferenceError" else error.message) := rfl

theorem ofMessage_kindName : ofMessage "LLMInferenceError" = inference "LLMInferenceError" := by
  decide +kernel

/-- When the message of an exception is as good as the exception. -/
theorem classify_reported_iff (error : Raised) :
    classify (reported error) = classify error ↔ error.KeepsDiagnosis := by
  rw [classify_reported]
  cases error with
  | sorted sorted =>
      cases sorted with
      | auth m =>
          refine iff_of_false (fun h => ?_) id
          change ofMessage (if m.isEmpty then _ else m) = auth m at h
          obtain rfl := ofMessage_eq_auth h
          exact absurd h (by decide +kernel)
      | model m =>
          refine iff_of_false (fun h => ?_) id
          change ofMessage (if m.isEmpty then _ else m) = model m at h
          cases m with
          | nil => exact absurd (ofMessage_kindName.symm.trans h) (by simp)
          | cons c m =>
              have hLength := congrArg List.length (ofMessage_eq_model h)
              simp at hLength
      | inference m => exact iff_of_true rfl trivial
  | other kind message =>
      cases message with
      | nil =>
          change ofMessage "LLMInferenceError" = ofMessage kind ↔ _
          rw [ofMessage_kindName]
          constructor
          · intro h
            exact .inr (ofMessage_eq_inference h.symm).symm
          · rintro (h | rfl)
            · exact absurd rfl h
            · exact ofMessage_kindName.symm
      | cons c message => exact iff_of_true rfl (.inl (List.cons_ne_nil c message))

theorem classify_eq_inference {error : Raised} {m : Text} (h : classify error = inference m) :
    m = error.description ∧ ofMessage m = inference m := by
  have hMessage : ofMessage error.description = inference m := by
    cases error with
    | sorted sorted =>
        cases sorted with
        | auth t => exact nomatch h
        | model t => exact nomatch h
        | inference t => exact h
    | other kind t => exact h
  obtain rfl := ofMessage_eq_inference hMessage
  exact ⟨rfl, hMessage⟩

/-- Sorting again changes nothing, unless there is neither a message nor the name of a class. -/
theorem classify_classify_iff (error : Raised) :
    classify (.sorted (classify error)) = classify error ↔ error ≠ .other [] [] := by
  have hNameless : classify (.other [] []) = inference [] := by decide +kernel
  cases hSorted : classify error with
  | auth m =>
      refine iff_of_true rfl ?_
      rintro rfl
      exact nomatch hNameless.symm.trans hSorted
  | model m =>
      refine iff_of_true rfl ?_
      rintro rfl
      exact nomatch hNameless.symm.trans hSorted
  | inference m =>
      obtain ⟨rfl, hKept⟩ := classify_eq_inference hSorted
      rw [ne_eq, ← Raised.description_eq_nil_iff]
      cases hDescription : error.description with
      | nil => exact iff_of_false (by decide +kernel) fun h => h rfl
      | cons c m =>
          rw [hDescription] at hKept
          exact iff_of_true hKept (List.cons_ne_nil c m)

end ProviderError

theorem Gateway.Answer.answer_delivery {answer : Gateway.Answer} {error : Raised}
    (hFault : answer.fault? = some error) :
    answer.delivery.answer = .error (Gateway.reported error) := by
  rw [Gateway.Answer.delivery_eq]
  cases answer with
  | raised other =>
      obtain rfl := Option.some.inj hFault
      rfl
  | chunks given =>
      simp only [hFault]
      rfl

namespace Ending

variable {p : PreparedRequest} {policy : Policy} {references : Option ReferenceSource}
  {first second : Except Raised Text}

/-- A provider that is asked twice decides by its second answer. -/
theorem ofAnswers_of_asked_twice
    (hAsked : 1 < (ofAnswers p policy references first second).asked.length) :
    ∃ asked, asked.length = 2 ∧
      ofAnswers p policy references first second = ofSecond asked second := by
  unfold ofAnswers at hAsked ⊢
  dsimp only at hAsked ⊢
  split at hAsked
  · exact absurd hAsked (Nat.lt_irrefl 1)
  · split at hAsked
    · exact absurd hAsked (Nat.lt_irrefl 1)
    · split at hAsked
      · exact absurd hAsked (Nat.lt_irrefl 1)
      · split at hAsked
        · rw [asked_handOut] at hAsked
          exact absurd hAsked (Nat.lt_irrefl 1)
        · next hInvalid =>
            simp only [hInvalid, Bool.false_eq_true, if_false]
            exact ⟨_, rfl, rfl⟩

theorem length_asked_le (p : PreparedRequest) (policy : Policy)
    (references : Option ReferenceSource) (first second : Except Raised Text) :
    (ofAnswers p policy references first second).asked.length ≤ 2 := by
  by_cases hAsked : 1 < (ofAnswers p policy references first second).asked.length
  · obtain ⟨asked, hLength, hEnding⟩ := ofAnswers_of_asked_twice hAsked
    rw [hEnding, asked_ofSecond, hLength]
  · omega

end Ending

namespace Task

variable {p : PreparedRequest} {policy : Policy} {references : Option ReferenceSource}

/-- A run whose provider refuses to answer or breaks off fails with the diagnosis of that. -/
theorem endingWith_of_answer_eq_error {deliveries : Deliveries} {n : Nat} {error : Raised}
    (hAnswer : (deliveries n).answer = .error error)
    (hAsked : n < (fresh p policy references deliveries).drain.task.askedPrompts.length) :
    ∃ asked, (fresh p policy references deliveries).drain.task.endingWith
        (fresh p policy references deliveries).drain.raised =
      .failed asked (.provider (.classify error)) := by
  have hEnding := endingWith_drain p policy references deliveries
  have hLength := congrArg (·.asked.length) hEnding
  simp only [endingWith, List.length_map] at hLength
  rw [hEnding]
  rw [hLength] at hAsked
  obtain _ | _ | n := n
  case zero =>
    rw [hAnswer]
    exact ⟨_, rfl⟩
  case succ.zero =>
    obtain ⟨asked, -, hSecond⟩ := Ending.ofAnswers_of_asked_twice hAsked
    rw [hSecond, hAnswer]
    exact ⟨asked, rfl⟩
  case succ.succ =>
    have hTwo := Ending.length_asked_le p policy references (deliveries 0).answer
      (deliveries 1).answer
    omega

/-- What a task fails with when its gateway raises, at either attempt: the diagnosis of a failed
inference with the same message. It is the diagnosis of what was raised exactly when that has a
message and was not sorted before. -/
theorem drain_diagnoses (p : PreparedRequest) (policy : Policy)
    (references : Option ReferenceSource) (s : Gateway.Script) {n : Nat} {error : Raised}
    (hFault : (s.answer n).fault? = some error)
    (hAsked : n < (fresh p policy references
      (Gateway.deliveries (some s))).drain.task.askedPrompts.length) :
    let t := (fresh p policy references (Gateway.deliveries (some s))).drain.task
    t.stage = .failed ∧ t.outcome = none ∧
    t.error = some (.provider (.classify (.sorted (.inference error.message)))) ∧
    (t.error = some (.provider (.classify error)) ↔ error.KeepsDiagnosis) ∧
    ∀ raised : Raised, ProviderError.classify (.sorted (.classify raised)) = .classify raised ↔
      raised ≠ .other [] [] := by
  intro t
  obtain ⟨asked, hEnding⟩ := endingWith_of_answer_eq_error
    (Gateway.Answer.answer_delivery hFault) hAsked
  have hError : t.error = some (.provider (.classify (Gateway.reported error))) :=
    congrArg Ending.error hEnding
  refine ⟨congrArg Ending.stage hEnding, congrArg Ending.outcome hEnding, hError, ?_,
    ProviderError.classify_classify_iff⟩
  rw [hError, Option.some.injEq, TaskError.provider.injEq]
  exact ProviderError.classify_reported_iff error

/-- A gateway whose calls raise a lost connection, without a message. -/
def silentGateway : Gateway.Script :=
  ⟨fun _ => .raised (.other "ConnectionResetError" []), .succeeds, false⟩

/-- The kind of a failure without a message is not told. -/
theorem drain_diagnoses_silent :
    (silentGateway.answer 0).fault? = some (.other "ConnectionResetError" []) ∧
    let t := (fresh default .standard none (Gateway.deliveries (some silentGateway))).drain.task
    0 < t.askedPrompts.length ∧
    t.error = some (.provider (.inference "LLMInferenceError")) ∧
    t.error ≠ some (.provider (.classify (.other "ConnectionResetError" []))) := by
  have hAsked : 0 < (fresh default .standard none
      (Gateway.deliveries (some silentGateway))).drain.task.askedPrompts.length := by decide +kernel
  have hDiagnosis := drain_diagnoses default .standard none silentGateway rfl hAsked
  refine ⟨rfl, hAsked, hDiagnosis.2.2.1.trans (by decide +kernel), ?_⟩
  rw [ne_eq, hDiagnosis.2.2.2.1]
  rintro (hMessage | hKind)
  · exact hMessage rfl
  · exact absurd hKind (by decide +kernel)

/-- The class and the message of an exception do not always outlast the report. -/
theorem diagnosis_lost :
    (fresh default .standard none
        (Gateway.deliveries (some silentGateway))).drain.task.error ≠
      some (.provider (.classify (.other "ConnectionResetError" []))) := by
  decide +kernel

end Task

end Composer
