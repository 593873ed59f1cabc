import Composer.Generation.Call
import Composer.Proofs.Generation.Preparation

/-!
Where a credential is sent. A call goes to the provider whose name stands before the first slash of
its model. A name without a slash gets the provider in front that it was told to have; one with a
slash is passed on as it is, although its provider was told from its beginning like that of any
other. So a call need not go to the provider that its credential was checked against. What the check
is for fails in one case: Anthropic's credential goes to OpenAI when the name puts OpenAI in front.
-/

namespace Composer

namespace Provider

def other : Provider → Provider
  | anthropic => openai
  | openai => anthropic

/-- How the name of a model begins that has the provider in front. -/
def front (p : Provider) : Text := p.name ++ ['/']

theorem slash_not_mem_name (p : Provider) : '/' ∉ p.name := by
  cases p <;> decide

theorem slash_mem_of_startsWith_front {model : Text} {p : Provider} (h : model.startsWith p.front) :
    '/' ∈ model := by
  obtain ⟨rest, rfl⟩ := (Text.startsWith_iff model p.front).1 h
  simp [front]

/-- A routed name has a provider in front that was there before, or the one it was told to have. -/
theorem startsWith_routedModel_iff (model : Text) (p q : Provider) :
    (routedModel model p).startsWith q.front ↔ model.startsWith q.front ∨ '/' ∉ model ∧ q = p := by
  unfold routedModel
  by_cases hSlash : '/' ∈ model
  · rw [if_pos ((Text.contains_singleton_iff model '/').2 hSlash)]
    simp [hSlash]
  · have hBefore : ¬model.startsWith q.front := mt slash_mem_of_startsWith_front hSlash
    have hFront : Text.startsWith (p.name ++ '/' :: model) q.front = decide (q = p) := by
      cases p <;> cases q <;> rfl
    rw [if_neg (mt (Text.contains_singleton_iff model '/').1 hSlash), hFront, decide_eq_true_iff]
    simp only [hBefore, hSlash, Bool.false_eq_true, not_false_eq_true, true_and, false_or]

/-- A model that has Anthropic's name in front is not taken for one of OpenAI's. -/
theorem ofModel_eq_anthropic {model : Text} (h : model.startsWith anthropic.front) :
    ofModel model = anthropic := by
  obtain ⟨rest, rfl⟩ := (Text.startsWith_iff model anthropic.front).1 h
  rfl

end Provider

/-- The name of the provider that a call goes to: what stands before the first slash. -/
def Gateway.Call.route? (c : Gateway.Call) : Option Text :=
  (Text.cut? ['/'] c.model).map Prod.fst

theorem Gateway.Call.route?_eq_name_iff (c : Gateway.Call) (p : Provider) :
    c.route? = some p.name ↔ c.model.startsWith p.front := by
  rw [route?, Option.map_eq_some_iff, Text.startsWith_iff]
  constructor
  · rintro ⟨⟨before, rest⟩, hCut, rfl⟩
    exact ⟨rest, Text.eq_append_of_cut?_eq_some hCut⟩
  · rintro ⟨rest, hModel⟩
    refine ⟨(p.name, rest), ?_, rfl⟩
    rw [hModel, Provider.front, List.append_assoc]
    exact Text.cut?_append_cons p.slash_not_mem_name rest

namespace PreparedRequest

variable {settings : Settings} {env : Environment} {references : Option ReferenceSource}
  {r : Request} {p : PreparedRequest}

theorem provider_eq_ofModel (h : ofRequest settings env references r = .ok p) :
    p.provider = .ofModel p.model := by
  cases (ofRequest_eq_iff _).1 h with
  | prepared => rfl

/-- The credential of a prepared request belongs to its provider, as far as it can be told. -/
theorem provider_eq_of_ofKey? {owner : Provider} (h : ofRequest settings env references r = .ok p)
    (hOwner : Provider.ofKey? p.apiKey = some owner) : p.provider = owner := by
  cases (ofRequest_eq_iff _).1 h with
  | prepared hGranted _ _ _ => exact (hGranted.eq_of_ofKey? hOwner).symm

theorem route?_call_eq_name_iff (userPrompt : Text) (q : Provider) :
    (p.call settings userPrompt).route? = some q.name ↔
      p.model.startsWith q.front ∨ '/' ∉ p.model ∧ q = p.provider :=
  (Gateway.Call.route?_eq_name_iff _ q).trans
    (Provider.startsWith_routedModel_iff p.model p.provider q)

/-- The credential that a prepared request is sent with goes to its owner where the model has no
slash in its name. It goes to the other provider in one case only: it is Anthropic's, and the name
of the model has OpenAI in front. -/
theorem routed_to_other_iff {owner : Provider}
    (hPrepared : ofRequest settings env references r = .ok p)
    (hOwner : Provider.ofKey? p.apiKey = some owner) (userPrompt : Text) :
    (p.call settings userPrompt).apiKey = some p.apiKey ∧
    ('/' ∉ p.model → (p.call settings userPrompt).route? = some owner.name) ∧
    ((p.call settings userPrompt).route? = some owner.other.name ↔
      owner = .anthropic ∧ p.model.startsWith "openai/") := by
  have hProvider := provider_eq_of_ofKey? hPrepared hOwner
  refine ⟨rfl, fun hSlash => ?_, ?_⟩
  · exact (route?_call_eq_name_iff userPrompt owner).2 (.inr ⟨hSlash, hProvider.symm⟩)
  · rw [route?_call_eq_name_iff, hProvider]
    cases owner with
    | anthropic =>
        have hFront : Provider.openai.front = ("openai/" : Text) := rfl
        simp only [Provider.other, hFront, reduceCtorEq, and_false, or_false, true_and]
    | openai =>
        -- a model of OpenAI's begins with a name of its own, so nobody else's is in front of it
        have hModel : ¬p.model.startsWith Provider.anthropic.front := by
          intro hFront
          have hOther := (provider_eq_ofModel hPrepared).trans (Provider.ofModel_eq_anthropic hFront)
          exact absurd (hProvider.symm.trans hOther) (by decide)
        simp only [Provider.other, hModel, reduceCtorEq, and_false, or_false, false_and]

/-- A request for a model that has OpenAI in front, with Anthropic's credential. -/
def strayRequest : Request :=
  ⟨some "ambient", .new, none, [], some "openai/gpt-4o", some "sk-ant-test"⟩

def standardSettings : Settings :=
  ⟨Settings.standardModel, 4096, 6, .standard, "127.0.0.1", 8000⟩

/-- The request prepared: its provider is told from a model that begins with no name of OpenAI's. -/
def strayPrepared : PreparedRequest :=
  ⟨strayRequest, "openai/gpt-4o", .anthropic, "sk-ant-test", Prompt.system .standard,
    Prompt.new "ambient" none⟩

theorem ofRequest_strayRequest :
    ofRequest standardSettings [] none strayRequest = .ok strayPrepared :=
  rfl

/-- The request passes all checks, and the theorem says that its credential goes astray. -/
theorem routed_to_other_iff_of_stray :
    ofRequest standardSettings [] none strayRequest = .ok strayPrepared ∧
    Provider.ofKey? strayPrepared.apiKey = some .anthropic ∧
    (strayPrepared.call standardSettings "ambient").apiKey = some "sk-ant-test" ∧
    (strayPrepared.call standardSettings "ambient").route? = some "openai" := by
  have hOwner : Provider.ofKey? strayPrepared.apiKey = some .anthropic := rfl
  obtain ⟨hKey, -, hOther⟩ := routed_to_other_iff ofRequest_strayRequest hOwner "ambient"
  exact ⟨ofRequest_strayRequest, hOwner, hKey, hOther.2 ⟨rfl, rfl⟩⟩

/-- It is not so that a credential is never sent to the provider that it does not belong to. -/
theorem credential_sent_astray :
    ¬∀ (settings : Settings) (env : Environment) (references : Option ReferenceSource) (r : Request)
      (p : PreparedRequest) (owner : Provider) (userPrompt : Text),
      ofRequest settings env references r = .ok p → Provider.ofKey? p.apiKey = some owner →
        (p.call settings userPrompt).route? ≠ some owner.other.name := by
  intro h
  have hRoute : (strayPrepared.call standardSettings []).route? = some Provider.openai.name := rfl
  exact h _ _ _ _ _ .anthropic [] ofRequest_strayRequest rfl hRoute

end PreparedRequest

end Composer
