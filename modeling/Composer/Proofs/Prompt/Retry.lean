import Composer.Generation.Prepare
import Composer.Proofs.Text.Joining

/-!
What a retry asks for. Whatever prompt the request leads to, the list of issues stands in it as it
is; and the prompt is an edit of the code at hand exactly when the request is served as an edit.
-/

namespace Composer

namespace Prompt

/-- A prompt to change the given code. -/
def Edits (code prompt : Text) : Prop := ∃ request chat limit, prompt = edit code request chat limit

theorem infix_new (request : Text) (source : Option ReferenceSource) :
    request <:+: new request source := by
  unfold new
  rw [List.append_assoc, List.append_assoc]
  exact List.infix_append ..

theorem infix_edit (code request : Text) (chat : List ChatMessage) (limit : Nat) :
    request <:+: edit code request chat limit := by
  have hLine : request <:+: "user request: " ++ request := (List.suffix_append ..).isInfix
  exact hLine.trans (Text.infix_joinWith _ (List.mem_of_getElem? (i := 8) rfl))

theorem issueList_infix_retry (request : Text) (issues : List Text) :
    issueList issues <:+: retry request issues :=
  Text.infix_joinWith _ (List.mem_of_getElem? (i := 3) rfl)

/-- A prompt for a new composition changes no code: it begins otherwise. -/
theorem not_edits_new (code request : Text) (source : Option ReferenceSource) :
    ¬Edits code (new request source) := by
  rintro ⟨other, chat, limit, hSame⟩
  have hNew : (new request source).head? = some 'c' := rfl
  have hEdit : (edit code other chat limit).head? = some 'y' := rfl
  rw [hSame, hEdit] at hNew
  exact absurd hNew (by decide)

end Prompt

theorem Request.codeToEdit?_eq_some_iff (r : Request) (code : Text) :
    r.codeToEdit? = some code ↔
      r.mode = .edit ∧ r.currentCode = some code ∧ code.isBlankText = false := by
  unfold codeToEdit?
  cases r.mode with
  | new => simp
  | edit =>
      cases r.currentCode with
      | none => simp
      | some found =>
          cases hBlank : found.isBlankText with
          | true =>
              simp only [hBlank, if_true, reduceCtorEq, false_iff]
              rintro ⟨-, hSame, hFilled⟩
              obtain rfl := Option.some.inj hSame
              exact absurd (hBlank.symm.trans hFilled) (by decide)
          | false =>
              simp only [hBlank, Bool.false_eq_true, if_false, true_and]
              exact ⟨fun h => ⟨h, Option.some.inj h ▸ hBlank⟩, fun h => h.1⟩

/-- What is asked after issues were found: all of them are listed in order, one on a line, and the
code at hand is to be changed exactly when the request is served as an edit. -/
structure Request.AskedAgain (r : Request) (issues : List Text) (prompt : Text) : Prop where
  listed : Text.unlines (issues.map fun issue => "- " ++ issue) <:+: prompt
  edits_iff : (∃ code, r.currentCode = some code ∧ Prompt.Edits code prompt) ↔
    r.effectiveMode = .edit

theorem PreparedRequest.askedAgain_retryPrompt (p : PreparedRequest)
    (references : Option ReferenceSource) (issues : List Text) :
    p.request.AskedAgain issues (p.retryPrompt references issues) := by
  have hRetry := Prompt.issueList_infix_retry (p.request.prompt.getD []) issues
  unfold retryPrompt
  cases hCode : p.request.codeToEdit? with
  | none =>
      refine ⟨hRetry.trans (Prompt.infix_new ..), ?_⟩
      have hMode : p.request.effectiveMode = .new := by simp [Request.effectiveMode, hCode]
      constructor
      · rintro ⟨code, -, hEdits⟩
        exact (Prompt.not_edits_new _ _ _ hEdits).elim
      · rw [hMode]
        exact fun h => Mode.noConfusion h
  | some code =>
      refine ⟨hRetry.trans (Prompt.infix_edit ..), ?_⟩
      have hMode : p.request.effectiveMode = .edit := by simp [Request.effectiveMode, hCode]
      constructor
      · exact fun _ => hMode
      · exact fun _ =>
          ⟨code, ((Request.codeToEdit?_eq_some_iff _ _).1 hCode).2.1, _, _, _, rfl⟩

end Composer
