import Composer.Proofs.Generation.Decision
import Composer.Proofs.Generation.Preparation
import Composer.Proofs.Generation.Route

/-!
What a second attempt is told about an edit. It is asked to change the same code for the same
request, and told every issue in order; but of the conversation, which ends the first prompt, the
second has nothing. The heading of a conversation stands there only if the code, the request or an
issue brings it in.
-/

namespace Composer

namespace Prompt

/-- Code between the fences of a prompt, under the tag of its language. -/
def fenced (code : Text) : Text := Text.unlines ["```javascript", code, "```"]

/-- A word of the heading of a conversation that no prompt has otherwise. -/
def heading : Text := "conversation:"

/-- What a prompt says about an edit: the code at hand in its fence, and the request. -/
structure AsksToEdit (code request prompt : Text) : Prop where
  fenced : fenced code <:+: prompt
  requested : request <:+: prompt

theorem fenced_infix_edit (code request : Text) (chat : List ChatMessage) (limit : Nat) :
    fenced code <:+: edit code request chat limit :=
  Text.unlines_infix [_, _] (List.cons_ne_nil _ _) _

/-- The conversation ends the prompt. -/
theorem format_suffix_edit (code request : Text) (chat : List ChatMessage) (limit : Nat) :
    History.format (History.truncate limit chat) <:+ edit code request chat limit := by
  have hLine : History.format (History.truncate limit chat) <:+
      "- single javascript code block only" ++ History.format (History.truncate limit chat) :=
    List.suffix_append ..
  exact hLine.trans (Text.suffix_unlines_concat [_, _, _, _, _, _, _, _, _, _, _, _, _, _, _] _)

theorem infix_retry (request : Text) (issues : List Text) : request <:+: retry request issues :=
  Text.infix_joinWith _ List.mem_cons_self

/-- A word without spaces that stands behind a label stands in the text. -/
theorem infix_of_label {word label t : Text} (hWord : ' ' ∉ word) (hLabel : ¬word <:+: label)
    (h : word <:+: label ++ ' ' :: t) : word <:+: t :=
  ((Text.infix_append_cons_iff hWord label t).1 h).resolve_left hLabel

theorem heading_infix_unlines_iff (lines : List Text) :
    heading <:+: Text.unlines lines ↔ ∃ line ∈ lines, heading <:+: line :=
  Text.infix_unlines_iff (by decide) (by decide) lines

theorem heading_infix_issueList {issues : List Text} (h : heading <:+: issueList issues) :
    ∃ issue ∈ issues, heading <:+: issue := by
  obtain ⟨line, hLine, hInfix⟩ := (heading_infix_unlines_iff _).1 h
  obtain ⟨issue, hIssue, rfl⟩ := List.mem_map.1 hLine
  have hDash : ¬heading <:+: ['-'] := Text.not_infix_of_contains_eq_false rfl
  exact ⟨issue, hIssue, infix_of_label (by decide) hDash hInfix⟩

/-- Apart from what they are given, the prompts for an edit and for another attempt have no heading
of a conversation. -/
theorem not_heading_infix_templates :
    ¬heading <:+: retry [] [] ∧ ¬heading <:+: editWith [] [] [] := by
  unfold retry retryReminder editWith
  repeat rewrite [String.toList_ofList]
  exact ⟨Text.not_infix_of_contains_eq_false (by decide +kernel),
    Text.not_infix_of_contains_eq_false (by decide +kernel)⟩

theorem heading_infix_retry {request : Text} {issues : List Text}
    (h : heading <:+: retry request issues) :
    heading <:+: request ∨ ∃ issue ∈ issues, heading <:+: issue := by
  have hFixed := not_heading_infix_templates.1
  rw [retry, heading_infix_unlines_iff] at h hFixed
  simp only [List.mem_cons, List.not_mem_nil, or_false, exists_eq_or_imp, exists_eq_left,
    not_or] at h hFixed
  simp only [hFixed, or_false, false_or] at h
  exact h.imp_right heading_infix_issueList

theorem heading_infix_edit {code request : Text} {limit : Nat}
    (h : heading <:+: edit code request [] limit) :
    heading <:+: code ∨ heading <:+: request := by
  have hFixed := not_heading_infix_templates.2
  have hEdit : edit code request [] limit = editWith code request [] := rfl
  rw [hEdit] at h
  rw [editWith, heading_infix_unlines_iff] at h hFixed
  simp only [List.mem_cons, List.not_mem_nil, or_false, exists_eq_or_imp, exists_eq_left,
    not_or] at h hFixed
  simp only [hFixed, or_false, false_or] at h
  rcases h with hCode | hRequest
  · exact .inl hCode
  · have hLabel : ¬heading <:+: "user request:" := Text.not_infix_of_contains_eq_false rfl
    have hLine : "user request: ".toList ++ request =
      "user request:".toList ++ ' ' :: request := rfl
    exact .inr (infix_of_label (by decide) hLabel (hLine ▸ hRequest))

/-- The second prompt for an edit has the heading of a conversation only from what it repeats. -/
theorem heading_infix_edit_retry_iff (code request : Text) (issues : List Text) (limit : Nat) :
    heading <:+: edit code (retry request issues) [] limit ↔
      heading <:+: code ∨ heading <:+: request ∨ ∃ issue ∈ issues, heading <:+: issue := by
  constructor
  · intro h
    exact (heading_infix_edit h).imp_right heading_infix_retry
  · have hCode : code <:+: edit code (retry request issues) [] limit :=
      (Text.infix_joinWith _ (List.mem_of_getElem? (i := 1) rfl)).trans (fenced_infix_edit ..)
    have hRetry := infix_edit code (retry request issues) [] limit
    rintro (h | h | ⟨issue, hIssue, h⟩)
    · exact h.trans hCode
    · exact (h.trans (infix_retry request issues)).trans hRetry
    · have hLine : issue <:+: issueList issues :=
        ((List.suffix_append "- ".toList issue).isInfix).trans
          (Text.infix_joinWith _ (List.mem_map_of_mem hIssue))
      exact ((h.trans hLine).trans (issueList_infix_retry request issues)).trans hRetry

end Prompt

/-- The conversation as a prompt shows it: the messages that the settings leave, under a heading. -/
def Request.conversation (settings : Settings) (r : Request) : Text :=
  History.format (History.truncate settings.chatHistoryLimit r.chatHistory)

theorem History.truncate_ne_nil {limit : Nat} {chat : List ChatMessage} (h : chat ≠ []) :
    truncate limit chat ≠ [] := by
  unfold truncate
  split
  · exact h
  · cases chat with
    | nil => exact absurd rfl h
    | cons first rest => exact List.cons_ne_nil _ _

theorem Request.heading_infix_conversation (settings : Settings) {r : Request}
    (h : r.chatHistory ≠ []) : Prompt.heading <:+: r.conversation settings := by
  have hShown : History.truncate settings.chatHistoryLimit r.chatHistory ≠ [] :=
    History.truncate_ne_nil h
  rw [conversation, History.format, if_neg (by simpa using hShown), List.append_assoc]
  have hHeading : Prompt.heading <:+: "\nprevious conversation:\n".toList :=
    (Text.contains_iff_infix _ _).1 (by rewrite [String.toList_ofList]; decide +kernel)
  exact hHeading.trans (List.prefix_append ..).isInfix

/-- A text without the heading of a conversation holds a conversation only if it is empty. -/
theorem Request.conversation_infix_iff (settings : Settings) (r : Request) {t : Text}
    (h : ¬Prompt.heading <:+: t) :
    r.conversation settings <:+: t ↔ r.chatHistory = [] := by
  constructor
  · intro hKept
    by_contra hTalk
    exact h ((r.heading_infix_conversation settings hTalk).trans hKept)
  · intro hNothing
    have hEmpty : r.conversation settings = [] := by
      rw [conversation, hNothing, History.truncate, ite_self]
      rfl
    exact hEmpty ▸ List.nil_infix

namespace Task

/-- A run whose first answer is judged invalid asks twice. -/
theorem askedPrompts_drain_of_invalid {policy : Policy} {deliveries : Deliveries}
    {text found : Text} {verdict : Verdict} (p : PreparedRequest)
    (references : Option ReferenceSource) (hAnswer : (deliveries 0).answer = .ok text)
    (hFound : Response.artifact text = .ok found) (hJudged : validate policy found = .ok verdict)
    (hInvalid : verdict.valid = false) :
    (fresh p policy references deliveries).drain.task.askedPrompts =
      [p.userPrompt, p.retryPrompt references verdict.issues] := by
  have hEnding := endingWith_drain p policy references deliveries
  have hAsked := congrArg (fun ending => ending.asked.map Prod.snd) hEnding
  simp only [Ending.ofAnswers, hAnswer, hFound, hJudged, hInvalid, Bool.false_eq_true, if_false,
    Ending.asked_ofSecond] at hAsked
  rw [endingWith, List.map_map] at hAsked
  exact (List.map_id _).symm.trans hAsked

/-- What an edit asks for when its first answer is judged invalid. Both prompts hold the code in its
fence and the request, the first prompt ends with the conversation, and the second lists every issue
in order. But unless what it repeats has the heading of a conversation in it, the second holds the
conversation only if there was none. -/
theorem drain_drops_conversation {settings : Settings} {env : Environment}
    {references : Option ReferenceSource} {r : Request} {p : PreparedRequest}
    {deliveries : Deliveries} {text found : Text} {verdict : Verdict}
    (hPrepared : PreparedRequest.ofRequest settings env references r = .ok p)
    (hEdit : r.effectiveMode = .edit) (hAnswer : (deliveries 0).answer = .ok text)
    (hFound : Response.artifact text = .ok found)
    (hJudged : validate settings.policy found = .ok verdict) (hInvalid : verdict.valid = false) :
    ∃ code request first second,
      r.currentCode = some code ∧ r.prompt = some request ∧
      (fresh p settings.policy references deliveries).drain.task.askedPrompts = [first, second] ∧
      Prompt.AsksToEdit code request.strip first ∧ r.conversation settings <:+ first ∧
      Prompt.AsksToEdit code request second ∧
      Text.unlines (verdict.issues.map fun issue => "- " ++ issue) <:+: second ∧
      (Prompt.heading <:+: second ↔ Prompt.heading <:+: code ∨ Prompt.heading <:+: request ∨
        ∃ issue ∈ verdict.issues, Prompt.heading <:+: issue) ∧
      (¬Prompt.heading <:+: second →
        (r.conversation settings <:+: second ↔ r.chatHistory = [])) := by
  obtain ⟨code, hCode⟩ : ∃ code, r.codeToEdit? = some code := by
    rw [← Option.isSome_iff_exists]
    by_contra hNone
    rw [Request.effectiveMode, if_neg hNone] at hEdit
    exact Mode.noConfusion hEdit
  have hAsked := askedPrompts_drain_of_invalid p references hAnswer hFound hJudged hInvalid
  cases (PreparedRequest.ofRequest_eq_iff _).1 hPrepared with
  | @prepared key request asked hGranted hPrompt hFilled hShown hAsks =>
      have hFirst : asked =
          Prompt.edit code request.strip r.chatHistory settings.chatHistoryLimit := by
        rw [← hAsks.firstPrompt_eq, PreparedRequest.firstPrompt, hCode]
      subst hFirst
      simp only [PreparedRequest.retryPrompt, hPrompt, Option.getD_some, hCode] at hAsked
      refine ⟨code, request, _, _, ((Request.codeToEdit?_eq_some_iff r code).1 hCode).2.1, hPrompt,
        hAsked, ⟨Prompt.fenced_infix_edit .., Prompt.infix_edit ..⟩,
        Prompt.format_suffix_edit .., ⟨Prompt.fenced_infix_edit .., ?_⟩, ?_,
        Prompt.heading_infix_edit_retry_iff .., r.conversation_infix_iff settings⟩
      · exact (Prompt.infix_retry request _).trans (Prompt.infix_edit ..)
      · exact (Prompt.issueList_infix_retry request _).trans (Prompt.infix_edit ..)

/-- A request to add a bass, made after something was said about the mood. -/
def bassEdit : Request :=
  ⟨some "add a bass", .edit, some "setcpm(90)\n$: s(\"bd\")",
    [⟨.user, "keep it dark", none⟩], none, some "sk-ant-test"⟩

def bassPrepared : PreparedRequest :=
  ⟨bassEdit, Settings.standardModel, .anthropic, "sk-ant-test", Prompt.system .standard,
    Prompt.edit "setcpm(90)\n$: s(\"bd\")" "add a bass" bassEdit.chatHistory 6⟩

theorem ofRequest_bassEdit :
    PreparedRequest.ofRequest PreparedRequest.standardSettings [] none bassEdit =
      .ok bassPrepared := rfl

/-- The provider answers with a single line of code. -/
def curtDeliveries : Deliveries :=
  Deliveries.ofList [.streamed ["```javascript\nsetcpm(90)\n```"] none]
    (.other "ConnectionError" "no further answer")

theorem answer_curtDeliveries :
    (curtDeliveries 0).answer = .ok ("```javascript\nsetcpm(90)\n```" : Text) := rfl

theorem artifact_curt : Response.artifact "```javascript\nsetcpm(90)\n```" = .ok "setcpm(90)" := by
  decide +kernel

def curtVerdict : Verdict := ⟨["code too short - add more content"]⟩

theorem validate_curt : validate .standard "setcpm(90)" = .ok curtVerdict := by
  decide +kernel

/-- Neither the code at hand, nor the request, nor the issue speaks of a conversation. -/
theorem not_heading_infix_bassRetry :
    ¬(Prompt.heading <:+: "setcpm(90)\n$: s(\"bd\")".toList ∨
      Prompt.heading <:+: "add a bass".toList ∨
      ∃ issue ∈ curtVerdict.issues, Prompt.heading <:+: issue) := by
  simp only [curtVerdict, List.mem_singleton, exists_eq_left, ← Text.contains_iff_infix]
  decide +kernel

/-- What was said about the mood ends the first prompt, and does not stand in the second. -/
theorem drain_drops_conversation_of_bassEdit :
    ∃ first second,
      (fresh bassPrepared .standard none curtDeliveries).drain.task.askedPrompts =
        [first, second] ∧
      bassEdit.conversation PreparedRequest.standardSettings <:+ first ∧
      ¬bassEdit.conversation PreparedRequest.standardSettings <:+: second := by
  obtain ⟨code, request, first, second, hCode, hRequest, hAsked, -, hFirst, -, -, hHeading,
      hKept⟩ :=
    drain_drops_conversation ofRequest_bassEdit (rfl : bassEdit.effectiveMode = .edit)
      answer_curtDeliveries artifact_curt validate_curt rfl
  obtain rfl := Option.some.inj hCode
  obtain rfl := Option.some.inj hRequest
  have hSilent : ¬Prompt.heading <:+: second := mt hHeading.1 not_heading_infix_bassRetry
  have hTalk : bassEdit.chatHistory ≠ [] := List.cons_ne_nil _ _
  exact ⟨first, second, hAsked, hFirst, mt (hKept hSilent).1 hTalk⟩

/-- It is not so that the second prompt holds the conversation that the first one ends with. -/
theorem conversation_dropped :
    ¬∀ (settings : Settings) (env : Environment) (references : Option ReferenceSource) (r : Request)
      (p : PreparedRequest) (deliveries : Deliveries) (first second : Text),
      PreparedRequest.ofRequest settings env references r = .ok p → r.effectiveMode = .edit →
      (fresh p settings.policy references deliveries).drain.task.askedPrompts = [first, second] →
      r.conversation settings <:+: second := by
  intro h
  have hKept := h PreparedRequest.standardSettings [] none bassEdit bassPrepared curtDeliveries _ _
    ofRequest_bassEdit rfl
    (askedPrompts_drain_of_invalid _ _ answer_curtDeliveries artifact_curt validate_curt rfl)
  have hTalk : bassEdit.chatHistory ≠ [] := List.cons_ne_nil _ _
  refine hTalk ((bassEdit.conversation_infix_iff PreparedRequest.standardSettings ?_).1 hKept)
  exact mt (Prompt.heading_infix_edit_retry_iff ..).1 not_heading_infix_bassRetry

end Task

end Composer
