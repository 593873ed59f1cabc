import Composer.Generation.Task
import Composer.Proofs.Prompt.Retry
import Composer.Proofs.Provider.Credential
import Composer.Proofs.Text.Digits

/-!
The checks before anything is asked of a provider. What a request comes to is a relation: each of
its cases says when it arises, a later one only where the earlier ones do not, and there is no
further one. Reference material and the conversation are read without a check, since what is wrong
with them never stands in the way. What stands in the way of a request that passes all checks is a
limit of the policy with more digits than can be written. A provider is set up once for a request
that is prepared, and never for another.
-/

namespace Composer

/-- A limit that is not negative leaves something to show of every conversation. -/
theorem Prompt.edit?_natCast (code request : Text) (chat : List ChatMessage) (limit : Nat) :
    edit? code request chat limit = some (edit code request chat limit) := by
  have hShown : History.truncate? limit chat = some (History.truncate limit chat) := by
    rw [History.truncate?, if_pos (Int.natCast_nonneg limit), Int.toNat_natCast]
  rw [edit?, hShown]
  rfl

/-- The instructions can be written exactly where each limit in them is below a power of ten. -/
theorem Prompt.system?_eq (p : Policy) :
    system? p =
      if ∀ n ∈ wholeLimits p, n < 10 ^ Reading.digitLimit then some (system p) else none := by
  have hDigits : 0 < Reading.digitLimit := by decide
  simp only [system?, List.all_eq_true, decide_eq_true_eq, Text.length_ofNat_le_iff hDigits]

namespace PreparedRequest

/-- What a request asks for with a prompt: in edit mode a change of code that is not blank, and
otherwise a new composition. -/
inductive Asks (settings : Settings) (references : Option ReferenceSource) (r : Request)
    (prompt : Text) : Text → Prop
  | change {code asked : Text} (hMode : r.mode = .edit) (hCode : r.currentCode = some code)
      (hFilled : code.isBlankText = false)
      (hAsked : Prompt.edit? code prompt r.chatHistory settings.chatHistoryLimit = some asked) :
      Asks settings references r prompt asked
  | new (hNothing : r.mode = .edit → ∀ code ∈ r.currentCode, code.isBlankText) :
      Asks settings references r prompt (Prompt.new prompt references)

/-- What a request comes to: its provider grants no credential, its prompt is missing or blank, the
policy has a limit that cannot be written, or it is prepared. -/
inductive Prepares (settings : Settings) (env : Environment) (references : Option ReferenceSource)
    (r : Request) : Except PreparationError PreparedRequest → Prop
  | noCredential {e : RequestError}
      (hRefused : (Provider.ofModel (modelOf settings r)).Grants r.apiKey env (.error e)) :
      Prepares settings env references r (.error (.refused e))
  | noPrompt {key : Text}
      (hGranted : (Provider.ofModel (modelOf settings r)).Grants r.apiKey env (.ok key))
      (hBlank : ∀ prompt ∈ r.prompt, prompt.isBlankText) :
      Prepares settings env references r (.error (.refused .missingPrompt))
  | oversized {key prompt : Text} {n : Nat}
      (hGranted : (Provider.ofModel (modelOf settings r)).Grants r.apiKey env (.ok key))
      (hPrompt : r.prompt = some prompt) (hFilled : prompt.isBlankText = false)
      (hLimit : n ∈ Prompt.wholeLimits settings.policy) (hVast : 10 ^ Reading.digitLimit ≤ n) :
      Prepares settings env references r (.error .oversizedLimit)
  | prepared {key prompt asked : Text}
      (hGranted : (Provider.ofModel (modelOf settings r)).Grants r.apiKey env (.ok key))
      (hPrompt : r.prompt = some prompt) (hFilled : prompt.isBlankText = false)
      (hShown : ∀ n ∈ Prompt.wholeLimits settings.policy, n < 10 ^ Reading.digitLimit)
      (hAsks : Asks settings references r prompt.strip asked) :
      Prepares settings env references r
        (.ok ⟨r, modelOf settings r, Provider.ofModel (modelOf settings r), key,
          Prompt.system settings.policy, asked⟩)

variable {settings : Settings} {env : Environment} {references : Option ReferenceSource}
  {r : Request}

theorem asks_firstPrompt (settings : Settings) (references : Option ReferenceSource) (r : Request)
    (prompt : Text) : Asks settings references r prompt (firstPrompt settings references r prompt) := by
  unfold firstPrompt
  cases hCode : r.codeToEdit? with
  | some code =>
      obtain ⟨hMode, hCurrent, hFilled⟩ := (Request.codeToEdit?_eq_some_iff r code).1 hCode
      exact .change hMode hCurrent hFilled (Prompt.edit?_natCast ..)
  | none =>
      refine .new fun hMode code hCurrent => ?_
      rw [← Bool.not_eq_false]
      intro hFilled
      have hSome := (Request.codeToEdit?_eq_some_iff r code).2 ⟨hMode, hCurrent, hFilled⟩
      exact absurd (hCode.symm.trans hSome) (by simp)

theorem Asks.firstPrompt_eq {prompt asked : Text} (h : Asks settings references r prompt asked) :
    firstPrompt settings references r prompt = asked := by
  unfold firstPrompt
  cases h with
  | change hMode hCurrent hFilled hAsked =>
      simp only [(Request.codeToEdit?_eq_some_iff r _).2 ⟨hMode, hCurrent, hFilled⟩]
      rw [Prompt.edit?_natCast] at hAsked
      exact Option.some.inj hAsked
  | new hNothing =>
      cases hCode : r.codeToEdit? with
      | none => rfl
      | some code =>
          obtain ⟨hMode, hCurrent, hFilled⟩ := (Request.codeToEdit?_eq_some_iff r code).1 hCode
          exact absurd (hNothing hMode code hCurrent) (by simp [hFilled])

/-- Code is to be changed exactly in edit mode, when there is code that is not blank. -/
theorem Asks.edits_iff {prompt asked : Text} (h : Asks settings references r prompt asked) :
    (∃ code, Prompt.Edits code asked) ↔
      r.mode = .edit ∧ ∃ code, r.currentCode = some code ∧ code.isBlankText = false := by
  cases h with
  | @change code _ hMode hCurrent hFilled hAsked =>
      rw [Prompt.edit?_natCast] at hAsked
      have hEdits : Prompt.Edits code asked := ⟨_, _, _, (Option.some.inj hAsked).symm⟩
      exact ⟨fun _ => ⟨hMode, code, hCurrent, hFilled⟩, fun _ => ⟨code, hEdits⟩⟩
  | new hNothing =>
      constructor
      · rintro ⟨code, hEdits⟩
        exact (Prompt.not_edits_new _ _ _ hEdits).elim
      · rintro ⟨hMode, code, hCurrent, hFilled⟩
        exact absurd (hNothing hMode code hCurrent) (by simp [hFilled])

theorem prepares_ofRequest (settings : Settings) (env : Environment)
    (references : Option ReferenceSource) (r : Request) :
    Prepares settings env references r (ofRequest settings env references r) := by
  cases hCredential : (Provider.ofModel (modelOf settings r)).credential r.apiKey env with
  | error e =>
      simp only [ofRequest, hCredential]
      exact .noCredential ((Provider.credential_eq_iff _).1 hCredential)
  | ok key =>
      have hGranted := (Provider.credential_eq_iff _).1 hCredential
      cases hPrompt : r.prompt with
      | none =>
          have hEmpty : (Text.strip []).isEmpty := rfl
          simp only [ofRequest, hCredential, hPrompt, Option.getD_none, hEmpty, if_true]
          exact .noPrompt hGranted (by simp [hPrompt])
      | some prompt =>
          simp only [ofRequest, hCredential, hPrompt, Option.getD_some, Text.isEmpty_strip]
          cases hBlank : prompt.isBlankText with
          | true => exact .noPrompt hGranted (by simp [hPrompt, hBlank])
          | false =>
              rw [if_neg Bool.false_ne_true, Prompt.system?_eq]
              by_cases hShown : ∀ n ∈ Prompt.wholeLimits settings.policy, n < 10 ^ Reading.digitLimit
              · rw [if_pos hShown]
                exact .prepared hGranted hPrompt hBlank hShown (asks_firstPrompt ..)
              · rw [if_neg hShown]
                push Not at hShown
                obtain ⟨n, hLimit, hVast⟩ := hShown
                exact .oversized hGranted hPrompt hBlank hLimit hVast

theorem Prepares.ofRequest_eq {outcome : Except PreparationError PreparedRequest}
    (h : Prepares settings env references r outcome) :
    ofRequest settings env references r = outcome := by
  unfold ofRequest
  cases h with
  | noCredential hRefused => simp only [hRefused.credential_eq]
  | noPrompt hGranted hBlank =>
      simp only [hGranted.credential_eq]
      cases hPrompt : r.prompt with
      | none => rfl
      | some prompt =>
          simp only [Option.getD_some, Text.isEmpty_strip, hBlank prompt hPrompt, if_true]
  | oversized hGranted hPrompt hFilled hLimit hVast =>
      have hUnshown : ¬∀ n ∈ Prompt.wholeLimits settings.policy, n < 10 ^ Reading.digitLimit :=
        fun hShown => absurd (hShown _ hLimit) hVast.not_gt
      simp only [hGranted.credential_eq, hPrompt, Option.getD_some, Text.isEmpty_strip, hFilled,
        Bool.false_eq_true, if_false, Prompt.system?_eq, if_neg hUnshown]
  | prepared hGranted hPrompt hFilled hShown hAsks =>
      simp only [hGranted.credential_eq, hPrompt, Option.getD_some, Text.isEmpty_strip, hFilled,
        Bool.false_eq_true, if_false, Prompt.system?_eq, if_pos hShown, hAsks.firstPrompt_eq]

theorem ofRequest_eq_iff (outcome : Except PreparationError PreparedRequest) :
    ofRequest settings env references r = outcome ↔
      Prepares settings env references r outcome := by
  constructor
  · rintro rfl
    exact prepares_ofRequest settings env references r
  · exact Prepares.ofRequest_eq

theorem edits_userPrompt_iff {p : PreparedRequest}
    (h : ofRequest settings env references r = .ok p) :
    (∃ code, Prompt.Edits code p.userPrompt) ↔
      r.mode = .edit ∧ ∃ code, r.currentCode = some code ∧ code.isBlankText = false := by
  cases (ofRequest_eq_iff _).1 h with
  | prepared _ _ _ _ hAsks => exact hAsks.edits_iff

end PreparedRequest

/-- Setting up a provider for a request, and noting for which one it was done. -/
def Task.noting (provider : PreparedRequest → Deliveries) (p : PreparedRequest) :
    StateM (List PreparedRequest) Deliveries := do
  modify (· ++ [p])
  return provider p

theorem Task.ofRequest_noting (provider : PreparedRequest → Deliveries) (settings : Settings)
    (env : Environment) (references : Option ReferenceSource) (r : Request)
    (noted : List PreparedRequest) :
    (Task.ofRequest (noting provider) settings env references r).run noted =
      ((PreparedRequest.ofRequest settings env references r).map fun p =>
          Task.fresh p settings.policy references (provider p),
        noted ++ (PreparedRequest.ofRequest settings env references r).toOption.toList) := by
  unfold Task.ofRequest
  cases PreparedRequest.ofRequest settings env references r with
  | error e => exact congrArg (Prod.mk _) (List.append_nil noted).symm
  | ok p => rfl

/-- What a request comes to is decided before anything is asked of a provider: by the first check
that it does not pass, or by a limit that cannot be written, and by nothing else. A request that
passes leads to an edit exactly when there is code to edit; only such a request has a provider set
up for it, and once. -/
theorem Task.ofRequest_decides (settings : Settings) (env : Environment)
    (references : Option ReferenceSource) (r : Request) :
    (∀ outcome, PreparedRequest.ofRequest settings env references r = outcome ↔
      PreparedRequest.Prepares settings env references r outcome) ∧
    (∀ p, PreparedRequest.ofRequest settings env references r = .ok p →
      ((∃ code, Prompt.Edits code p.userPrompt) ↔
        r.mode = .edit ∧ ∃ code, r.currentCode = some code ∧ code.isBlankText = false)) ∧
    ∀ provider noted,
      (Task.ofRequest (noting provider) settings env references r).run noted =
        ((PreparedRequest.ofRequest settings env references r).map fun p =>
            Task.fresh p settings.policy references (provider p),
          noted ++ (PreparedRequest.ofRequest settings env references r).toOption.toList) :=
  ⟨PreparedRequest.ofRequest_eq_iff, fun _ => PreparedRequest.edits_userPrompt_iff,
    fun provider noted => Task.ofRequest_noting provider settings env references r noted⟩

/-- Settings that allow one voice more than can be written. -/
def Settings.vast : Settings :=
  ⟨standardModel, 4096, 6, { Policy.standard with maxVoices := 10 ^ Reading.digitLimit },
    "127.0.0.1", 8000⟩

/-- A request that passes all checks. -/
def Request.ambient : Request := ⟨some "ambient", .new, none, [], none, some "sk-ant-test"⟩

/-- It is not so that a request is prepared, or else refused for its credential or its prompt. -/
theorem PreparedRequest.ofRequest_vast :
    ofRequest Settings.vast [] none Request.ambient = .error .oversizedLimit ∧
    ¬∀ (settings : Settings) (env : Environment) (references : Option ReferenceSource)
      (r : Request),
      (∃ p, ofRequest settings env references r = .ok p) ∨
        ∃ e : RequestError, ofRequest settings env references r = .error (.refused e) := by
  have hGranted : Provider.anthropic.Grants Request.ambient.apiKey [] (.ok "sk-ant-test") :=
    (Provider.credential_eq_iff _).1 rfl
  have hLimit : 10 ^ Reading.digitLimit ∈ Prompt.wholeLimits Settings.vast.policy :=
    List.mem_cons_self
  have hOversized : Prepares Settings.vast [] none Request.ambient (.error .oversizedLimit) :=
    .oversized hGranted rfl rfl hLimit le_rfl
  have hUnprepared := hOversized.ofRequest_eq
  refine ⟨hUnprepared, fun h => ?_⟩
  obtain ⟨p, hPrepared⟩ | ⟨e, hRefused⟩ := h Settings.vast [] none Request.ambient
  · exact absurd (hUnprepared.symm.trans hPrepared) (by simp)
  · exact absurd (hUnprepared.symm.trans hRefused) (by simp)

end Composer
