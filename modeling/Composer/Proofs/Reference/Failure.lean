import Composer.Command.Run
import Composer.Proofs.Generation.Decision
import Composer.Proofs.Generation.Preparation

/-!
Reference material that cannot be had. A server is set up and answers as if it had none: what it
refuses it refuses without references too, and every other request goes to the provider, with a
prompt that shows all that was found or nothing at all. A command is stricter. It asks the provider
only if the files of its dataset can be read or are not there, and fails otherwise.
-/

namespace Composer

/-- The source fails for a request, when it is asked for songs or for the style of the dataset. -/
def ReferenceSource.FailsFor (source : ReferenceSource) (request : Text) : Prop :=
  (∃ e, source.retrieve request Prompt.shownMatches Prompt.shownContrasts = .error e) ∨
    ∃ e, source.stylePriors = .error e

/-- A source that fails is as good as none: no part of its section is shown. -/
theorem Prompt.new_of_failsFor {source : ReferenceSource} {request : Text}
    (h : source.FailsFor request) : new request (some source) = new request none := by
  have hFails : referenceSection request source = .error () := by
    unfold referenceSection
    rcases h with ⟨e, hRetrieve⟩ | ⟨e, hPriors⟩
    · rw [hRetrieve]
      rfl
    · rw [hPriors]
      cases source.retrieve request shownMatches shownContrasts <;> rfl
  have hSome : optionalReferenceSection request (some source) = [] := by
    simp only [optionalReferenceSection, hFails]
  have hNone : optionalReferenceSection request none = [] := rfl
  unfold new
  rw [hSome, hNone]

theorem Prompt.new_of_forall_failsFor {references : Option ReferenceSource} {request : Text}
    (h : ∀ source ∈ references, source.FailsFor request) :
    new request references = new request none := by
  cases references with
  | none => rfl
  | some source => exact new_of_failsFor (h source rfl)

/-! ### Tasks -/

/-- No run ends before the provider was asked what was prepared. -/
theorem Ending.head?_asked (p : PreparedRequest) (policy : Policy)
    (references : Option ReferenceSource) (first second : Except Raised Text) :
    (ofAnswers p policy references first second).asked.head? =
      some (p.systemPrompt, p.userPrompt) := by
  unfold ofAnswers
  split
  · rfl
  · split
    · rfl
    · split
      · rfl
      · split
        · rw [asked_handOut]
          rfl
        · rw [asked_ofSecond]
          rfl

theorem Task.head?_askedPrompts_drain (p : PreparedRequest) (policy : Policy)
    (references : Option ReferenceSource) (deliveries : Deliveries) :
    (fresh p policy references deliveries).drain.task.askedPrompts.head? = some p.userPrompt := by
  have hEnding := endingWith_drain p policy references deliveries
  have hAsked := congrArg (·.asked.head?) hEnding
  simp only [endingWith, Ending.head?_asked, List.head?_map] at hAsked
  cases hHead : (fresh p policy references deliveries).drain.task.askedPrompts.head? with
  | none => simp [hHead] at hAsked
  | some u =>
      rw [hHead] at hAsked
      exact congrArg some (Prod.mk.inj (Option.some.inj hAsked)).2

/-- The text that a request asks for, without white space at its ends. -/
def Request.asking (r : Request) : Text := (r.prompt.getD []).strip

/-- Reference material changes what is asked, and nothing else. -/
theorem PreparedRequest.ofRequest_eq_map (settings : Settings) (env : Environment)
    (references : Option ReferenceSource) (r : Request) :
    ofRequest settings env references r = (ofRequest settings env none r).map fun p =>
      { p with userPrompt := firstPrompt settings references r r.asking } := by
  cases hCredential : (Provider.ofModel (modelOf settings r)).credential r.apiKey env with
  | error e =>
      simp only [ofRequest, hCredential]
      rfl
  | ok key =>
      cases hEmpty : (r.prompt.getD []).strip.isEmpty with
      | true =>
          simp only [ofRequest, hCredential, hEmpty, if_true]
          rfl
      | false =>
          simp only [ofRequest, hCredential, hEmpty, Bool.false_eq_true, if_false]
          cases Prompt.system? settings.policy with
          | none => rfl
          | some system => rfl

theorem PreparedRequest.request_eq {settings : Settings} {env : Environment}
    {references : Option ReferenceSource} {r : Request} {p : PreparedRequest}
    (h : ofRequest settings env references r = .ok p) : p.request = r := by
  cases (ofRequest_eq_iff _).1 h with
  | prepared => rfl

/-- A task that goes to the provider as the one without references would: it asks first what was
prepared. Where the references fail that is what the other asks, and for something new it is the
prompt without any part of them. A second attempt is no different. -/
structure Task.GoesOn (references : Option ReferenceSource) (t bare : Task) : Prop where
  asked : t.drain.task.askedPrompts.head? = some t.prepared.userPrompt
  unaided : (∀ source ∈ references, source.FailsFor t.prepared.request.asking) →
    t.prepared = bare.prepared
  unaidedAgain : ∀ issues, (∀ source ∈ references,
      source.FailsFor (Prompt.retry (t.prepared.request.prompt.getD []) issues)) →
    t.prepared.retryPrompt references issues = bare.prepared.retryPrompt none issues
  plain : t.prepared.request.codeToEdit? = none →
    bare.prepared.userPrompt = Prompt.new t.prepared.request.asking none

theorem Task.goesOn_fresh {settings : Settings} {env : Environment} {r : Request}
    {p : PreparedRequest} (hPrepared : PreparedRequest.ofRequest settings env none r = .ok p)
    (policy : Policy) (references : Option ReferenceSource) (deliveries : Deliveries) :
    (fresh { p with userPrompt := PreparedRequest.firstPrompt settings references r r.asking }
      policy references deliveries).GoesOn references (fresh p policy none deliveries) := by
  obtain rfl := PreparedRequest.request_eq hPrepared
  have hPrompt : PreparedRequest.firstPrompt settings none p.request p.request.asking =
      p.userPrompt := by
    have hSame := PreparedRequest.ofRequest_eq_map settings env none p.request
    rw [hPrepared] at hSame
    exact congrArg (·.userPrompt) (Except.ok.inj hSame).symm
  refine ⟨head?_askedPrompts_drain .., ?_, ?_, ?_⟩
  · intro (hFails : ∀ source ∈ references, source.FailsFor p.request.asking)
    have hUnaided : PreparedRequest.firstPrompt settings references p.request p.request.asking =
        p.userPrompt := by
      rw [← hPrompt, PreparedRequest.firstPrompt, PreparedRequest.firstPrompt,
        Prompt.new_of_forall_failsFor hFails]
    change { p with userPrompt := _ } = p
    rw [hUnaided]
  · intro issues (hFails : ∀ source ∈ references,
      source.FailsFor (Prompt.retry (p.request.prompt.getD []) issues))
    change PreparedRequest.retryPrompt p references issues = p.retryPrompt none issues
    unfold PreparedRequest.retryPrompt
    dsimp only
    rw [Prompt.new_of_forall_failsFor hFails]
  · intro (hNew : p.request.codeToEdit? = none)
    change p.userPrompt = Prompt.new p.request.asking none
    rw [← hPrompt, PreparedRequest.firstPrompt, hNew]

/-! ### Servers -/

namespace Server

/-- The server without reference material. -/
def bare (s : Server) : Server := { s with references := none }

theorem start_eq (s : Server) (r : Request) :
    s.start r = (PreparedRequest.ofRequest s.settings s.environment s.references r).map fun p =>
      Task.fresh p s.settings.policy s.references s.deliveries := by
  unfold start Task.ofRequest
  cases PreparedRequest.ofRequest s.settings s.environment s.references r <;> rfl

/-- The server refuses what it would refuse without references, and goes on with all else. -/
inductive Starts (s : Server) (r : Request) : Except PreparationError Task → Prop
  | refused {e : PreparationError} (hBare : s.bare.start r = .error e) : Starts s r (.error e)
  | started {t bare : Task} (hBare : s.bare.start r = .ok bare)
      (hGoesOn : t.GoesOn s.references bare) : Starts s r (.ok t)

theorem starts_start (s : Server) (r : Request) : s.Starts r (s.start r) := by
  have hBare := s.bare.start_eq r
  rw [start_eq, PreparedRequest.ofRequest_eq_map]
  cases hPrepared : PreparedRequest.ofRequest s.settings s.environment none r with
  | error e => exact .refused (hBare.trans (congrArg _ hPrepared))
  | ok p => exact .started (hBare.trans (congrArg _ hPrepared)) (Task.goesOn_fresh hPrepared ..)

theorem exists_start_iff {s : Server} {r : Request} :
    (∃ t, s.start r = .ok t) ↔ ∃ t, s.bare.start r = .ok t := by
  have hStarts := s.starts_start r
  generalize s.start r = result at hStarts ⊢
  cases hStarts with
  | refused hBare => simp [hBare]
  | started hBare _ => simp [hBare]

/-- What is wrong with a body is told without a task. -/
theorem ofFaults_ne_stream (faults : List Fault) (t : Task) :
    Reply.ofFaults faults ≠ .stream t := by
  unfold Reply.ofFaults
  split
  · simp
  · split <;> simp

theorem validation_ne_stream (body : Json) (t : Task) : validation body ≠ .stream t := by
  unfold validation
  split
  · exact ofFaults_ne_stream _ t
  · split
    · simp
    · split <;> simp

/-- A body is either read, or refused without a task. -/
theorem withBody_cases (depth : Nat) (body : Text) :
    (∃ found, ∀ handler, withBody depth body handler = handler found) ∨
      ∃ reply, (∀ handler, withBody depth body handler = reply) ∧ ∀ t, reply ≠ .stream t := by
  unfold withBody
  split
  · exact .inr ⟨_, fun _ => rfl, ofFaults_ne_stream _⟩
  · split
    · exact .inl ⟨_, fun _ => rfl⟩
    · exact .inr ⟨_, fun _ => rfl, ofFaults_ne_stream _⟩
    · exact .inr ⟨_, fun _ => rfl, by simp [Reply.unreadable]⟩

/-- A reply is that of the generation endpoint, or the same at every server and without a task. -/
theorem reply_cases (depth : Nat) (i : Incoming) :
    (∃ found, ∀ s : Server, s.reply depth i = s.generate found) ∨
      ∃ reply, (∀ s : Server, s.reply depth i = reply) ∧ ∀ t, reply ≠ .stream t := by
  unfold reply
  by_cases hGenerate : place i.path = ("/api/generate" : Text)
  · simp only [if_pos hGenerate]
    split
    · rcases withBody_cases depth i.body with ⟨found, hFound⟩ | ⟨reply, hReply, hOther⟩
      · exact .inl ⟨found, fun s => hFound s.generate⟩
      · exact .inr ⟨reply, fun s => hReply s.generate, hOther⟩
    · exact .inr ⟨_, fun _ => rfl, by simp [Reply.methodNotAllowed]⟩
  · by_cases hValidate : place i.path = ("/api/validate" : Text)
    · simp only [if_neg hGenerate, if_pos hValidate]
      split
      · rcases withBody_cases depth i.body with ⟨found, hFound⟩ | ⟨reply, hReply, hOther⟩
        · exact .inr ⟨_, fun _ => hFound validation, validation_ne_stream found⟩
        · exact .inr ⟨reply, fun _ => hReply validation, hOther⟩
      · exact .inr ⟨_, fun _ => rfl, by simp [Reply.methodNotAllowed]⟩
    · simp only [if_neg hGenerate, if_neg hValidate]
      exact .inr ⟨_, fun _ => rfl, by simp [Reply.notFound]⟩

/-- What the server replies: the reply of the server without references, or the events of a task
that goes on as the task there. -/
inductive Replies (s : Server) (depth : Nat) (i : Incoming) : Reply → Prop
  | other {reply : Reply} (hBare : s.bare.reply depth i = reply) (hOther : ∀ t, reply ≠ .stream t) :
      Replies s depth i reply
  | streamed {t bare : Task} (hBare : s.bare.reply depth i = .stream bare)
      (hGoesOn : t.GoesOn s.references bare) : Replies s depth i (.stream t)

theorem replies_reply (s : Server) (depth : Nat) (i : Incoming) :
    s.Replies depth i (s.reply depth i) := by
  rcases reply_cases depth i with ⟨found, hFound⟩ | ⟨reply, hReply, hOther⟩
  · have hBare := hFound s.bare
    rw [hFound, generate]
    cases hRequest : Request.ofJson .modelAttributesType found with
    | faulty faults =>
        rw [generate, hRequest] at hBare
        exact .other hBare (ofFaults_ne_stream faults)
    | sound r =>
        -- both replies are read off the way the two servers start the same request
        simp only [generate, hRequest] at hBare
        dsimp only
        have hStarts := s.starts_start r
        generalize s.start r = result at hStarts ⊢
        cases hStarts with
        | @refused e hSame =>
            rw [hSame] at hBare
            cases e with
            | refused e => exact .other hBare (by simp [Reply.ofRefusal])
            | oversizedLimit => exact .other hBare (by simp)
        | started hSame hGoesOn =>
            rw [hSame] at hBare
            exact .streamed hBare hGoesOn
  · rw [hReply]
    exact .other (hReply s.bare) hOther

/-- Files that are of no use change nothing about a server, and those that are of use nothing about
whether there is one. -/
theorem ofEnvironment_eq (depth : Nat) (environment : Environment) (dataset : DatasetFiles)
    (deliveries : Deliveries) :
    (ofEnvironment depth environment dataset deliveries).map bare =
        ofEnvironment depth environment ⟨none, none⟩ deliveries ∧
      ∀ e, ReferenceLibrary.loadIfPresent depth dataset = .error e →
        ofEnvironment depth environment dataset deliveries =
          ofEnvironment depth environment ⟨none, none⟩ deliveries := by
  unfold ofEnvironment
  cases Settings.ofEnvironment environment with
  | error e => exact ⟨rfl, fun _ _ => rfl⟩
  | ok settings =>
      refine ⟨rfl, fun e hLoad => ?_⟩
      have hNone : ReferenceSource.ofFiles? depth dataset = none := by
        rw [ReferenceSource.ofFiles?, hLoad]
      change Except.ok (withSettings depth settings environment dataset deliveries) = _
      rw [withSettings, hNone]
      rfl

end Server

/-! ### Commands -/

/-- The prompts that were asked before a command ended. -/
def Outcome.asked (o : Outcome) : List Text := o.task.elim [] Task.askedPrompts

/-- The same surroundings, with no file of a dataset. -/
def Surroundings.withoutDataset (s : Surroundings) : Surroundings :=
  { s with dataset := ⟨none, none⟩ }

namespace Command

/-- The server of a command, with what was read of its dataset. -/
def serverWith (s : Surroundings) (settings : Settings) (library : Option ReferenceLibrary) :
    Server :=
  ⟨settings, s.environment, library.map .ofLibrary, s.deliveries⟩

section
variable {s : Surroundings} {settings : Settings} {prompt : Text}
  {model apiKey edited folder title : Option Text}

/-- A task is started when the code to edit and the dataset can be read, and the request passes its
checks. -/
theorem startGenerate_eq_ok_iff (t : Task) :
    startGenerate s settings prompt model apiKey edited = .ok t ↔
      ∃ code library, edited.mapM (codeAt s) = .ok code ∧
        ReferenceLibrary.loadIfPresent s.depth s.dataset = .ok library ∧
        (serverWith s settings library).start (requestOf prompt model apiKey code) = .ok t := by
  unfold startGenerate serverOf
  cases hCode : edited.mapM (codeAt s) with
  | error e =>
      refine ⟨fun h => ?_, ?_⟩
      · cases h
      · rintro ⟨code, library, hOk, -⟩
        cases hOk
  | ok code =>
      cases hLoad : ReferenceLibrary.loadIfPresent s.depth s.dataset with
      | error e =>
          refine ⟨fun h => ?_, ?_⟩
          · cases h
          · rintro ⟨code, library, -, hOk, -⟩
            cases hOk
      | ok library =>
          have hMap {x : Except PreparationError Task} :
              x.mapError CommandError.request = .ok t ↔ x = .ok t := by
            cases x <;> simp [Except.mapError]
          change Except.mapError _ (Server.start (serverWith s settings library) _) = _ ↔ _
          rw [hMap]
          constructor
          · exact fun hStart => ⟨code, library, rfl, rfl, hStart⟩
          · rintro ⟨_, _, hSame, hLibrary, hStart⟩
            cases hSame
            cases hLibrary
            exact hStart

theorem runWith_generate (hSettings : Settings.ofEnvironment s.environment = .ok settings) :
    (do
      let settings ← (Settings.ofEnvironment s.environment).mapError CommandError.settings
      runWith s settings (.generate prompt model apiKey edited folder title)) =
    (startGenerate s settings prompt model apiKey edited).map (runTask s folder title prompt) := by
  rw [hSettings]
  rfl

theorem run_of_started {t : Task}
    (hSettings : Settings.ofEnvironment s.environment = .ok settings)
    (hStart : startGenerate s settings prompt model apiKey edited = .ok t) :
    run s (.generate prompt model apiKey edited folder title) =
      runTask s folder title prompt t := by
  unfold run
  rw [runWith_generate hSettings, hStart]
  rfl

theorem run_of_error {e : CommandError}
    (hSettings : Settings.ofEnvironment s.environment = .ok settings)
    (hStart : startGenerate s settings prompt model apiKey edited = .error e) :
    run s (.generate prompt model apiKey edited folder title) = failed [] e := by
  unfold run
  rw [runWith_generate hSettings, hStart]
  rfl

theorem asked_ne_nil_of_start {server : Server} {r : Request} {t : Task}
    (h : server.start r = .ok t) : t.drain.task.askedPrompts ≠ [] := by
  have hStarts := server.starts_start r
  rw [h] at hStarts
  cases hStarts with
  | started _ hGoesOn => exact List.ne_nil_of_mem (List.mem_of_mem_head? hGoesOn.asked)

/-- The provider is asked when a task is started, and never otherwise. -/
theorem asked_run_generate_ne_nil_iff :
    (run s (.generate prompt model apiKey edited folder title)).asked ≠ [] ↔
      ∃ settings code library t, Settings.ofEnvironment s.environment = .ok settings ∧
        edited.mapM (codeAt s) = .ok code ∧
        ReferenceLibrary.loadIfPresent s.depth s.dataset = .ok library ∧
        (serverWith s settings library).start (requestOf prompt model apiKey code) = .ok t := by
  constructor
  · intro hAsked
    cases hSettings : Settings.ofEnvironment s.environment with
    | error e =>
        unfold run at hAsked
        rw [hSettings] at hAsked
        exact absurd rfl hAsked
    | ok settings =>
        cases hStart : startGenerate s settings prompt model apiKey edited with
        | error e =>
            rw [run_of_error hSettings hStart] at hAsked
            exact absurd rfl hAsked
        | ok t =>
            obtain ⟨code, library, hStarted⟩ := (startGenerate_eq_ok_iff t).1 hStart
            exact ⟨settings, code, library, t, rfl, hStarted⟩
  · rintro ⟨settings, code, library, t, hSettings, hCode, hLoad, hStart⟩
    have hStarted := (startGenerate_eq_ok_iff t).2 ⟨code, library, hCode, hLoad, hStart⟩
    rw [run_of_started hSettings hStarted]
    exact asked_ne_nil_of_start hStart

/-- What a command makes of the files of its dataset: without a file of songs it runs as without a
dataset, with files that can be read it asks the provider when it would without, and with files that
cannot be read it fails instead. -/
structure Insists (s : Surroundings) (c : Command) : Prop where
  absent :
    ReferenceLibrary.loadIfPresent s.depth s.dataset = .ok none → run s c = run s.withoutDataset c
  loaded : ∀ library, ReferenceLibrary.loadIfPresent s.depth s.dataset = .ok library →
    ((run s c).asked ≠ [] ↔ (run s.withoutDataset c).asked ≠ [])
  broken : ∀ e, ReferenceLibrary.loadIfPresent s.depth s.dataset = .error e →
    (run s.withoutDataset c).asked ≠ [] →
      (run s c).asked = [] ∧ (run s c).code = 1 ∧ (run s c).failure = some (.dataset e)

theorem insists_generate (s : Surroundings) (prompt : Text)
    (model apiKey edited folder title : Option Text) :
    Insists s (.generate prompt model apiKey edited folder title) where
  absent hLoad := by
    have hSame (settings : Settings) : startGenerate s settings prompt model apiKey edited =
        startGenerate s.withoutDataset settings prompt model apiKey edited := by
      unfold startGenerate serverOf
      rw [hLoad]
      rfl
    cases hSettings : Settings.ofEnvironment s.environment with
    | error e =>
        have hBare : Settings.ofEnvironment s.withoutDataset.environment = .error e := hSettings
        unfold run
        rw [hSettings, hBare]
        rfl
    | ok settings =>
        have hBare : Settings.ofEnvironment s.withoutDataset.environment = .ok settings := hSettings
        cases hStart : startGenerate s settings prompt model apiKey edited with
        | error e => rw [run_of_error hSettings hStart, run_of_error hBare (hSame settings ▸ hStart)]
        | ok t =>
            rw [run_of_started hSettings hStart, run_of_started hBare (hSame settings ▸ hStart)]
            rfl
  loaded library hLoad := by
    rw [asked_run_generate_ne_nil_iff, asked_run_generate_ne_nil_iff]
    constructor
    · rintro ⟨settings, code, _, _, hSettings, hCode, -, hStart⟩
      obtain ⟨t, hBare⟩ := Server.exists_start_iff.1 ⟨_, hStart⟩
      exact ⟨settings, code, none, t, hSettings, hCode, rfl, hBare⟩
    · rintro ⟨settings, code, _, _, hSettings, hCode, -, hStart⟩
      obtain ⟨t, hBare⟩ := Server.exists_start_iff.1 ⟨_, hStart⟩
      obtain ⟨t, hLoaded⟩ :=
        (Server.exists_start_iff (s := serverWith s settings library)).2 ⟨t, hBare⟩
      exact ⟨settings, code, library, t, hSettings, hCode, hLoad, hLoaded⟩
  broken e hLoad hAsked := by
    obtain ⟨settings, code, -, -, hSettings, hCode, -, -⟩ := asked_run_generate_ne_nil_iff.1 hAsked
    change Settings.ofEnvironment s.environment = .ok settings at hSettings
    change edited.mapM (codeAt s) = .ok code at hCode
    have hFails : startGenerate s settings prompt model apiKey edited = .error (.dataset e) := by
      unfold startGenerate serverOf
      rw [hCode, hLoad]
      rfl
    rw [run_of_error hSettings hFails]
    exact ⟨rfl, rfl, rfl⟩

end

end Command

/-- References that fail never keep a server from the provider, and leave no trace in what it asks:
neither when it is set up, whatever is in the files, nor when it replies, whatever its source. A
command is kept from the provider by files that cannot be read, and by nothing else in them. -/
theorem references_stop_commands_only (s : Surroundings) (server : Server) (depth : Nat)
    (i : Incoming) (prompt : Text) (model apiKey edited folder title : Option Text) :
    (Server.ofEnvironment s.depth s.environment s.dataset s.deliveries).map Server.bare =
        Server.ofEnvironment s.depth s.environment ⟨none, none⟩ s.deliveries ∧
      (∀ e, ReferenceLibrary.loadIfPresent s.depth s.dataset = .error e →
        Server.ofEnvironment s.depth s.environment s.dataset s.deliveries =
          Server.ofEnvironment s.depth s.environment ⟨none, none⟩ s.deliveries) ∧
      server.Replies depth i (server.reply depth i) ∧
      Command.Insists s (.generate prompt model apiKey edited folder title) := by
  obtain ⟨hBare, hUseless⟩ := Server.ofEnvironment_eq s.depth s.environment s.dataset s.deliveries
  exact ⟨hBare, hUseless, server.replies_reply depth i,
    Command.insists_generate s prompt model apiKey edited folder title⟩

/-- Surroundings with a file of songs that is no JSON text. -/
def Surroundings.spoilt : Surroundings where
  environment := [("AUDIAL_REFERENCE_DATA", "ref")]
  input := []
  file := .error .missing
  folder := .ok none
  dataset := ⟨some (.text "\x7boops"), none⟩
  deliveries := fun _ => .opened [] none none
  now := ⟨⟨2024, 1, 1⟩, 0, 0, 0, 0, none⟩
  depth := 2

/-- It is not so that a command goes to the provider whatever is in the files of its dataset. -/
theorem spoilt_dataset_stops_command :
    ¬∀ (s : Surroundings) (prompt : Text) (model apiKey edited folder title : Option Text),
      (Command.run s.withoutDataset
        (.generate prompt model apiKey edited folder title)).asked ≠ [] →
      (Command.run s (.generate prompt model apiKey edited folder title)).asked ≠ [] := by
  intro h
  have hBare : (Command.run Surroundings.spoilt.withoutDataset
      (.generate "techno" none (some "sk-ant-test") none none none)).asked ≠ [] :=
    Command.asked_run_generate_ne_nil_iff.2 ⟨_, none, none, _, rfl, rfl, rfl, rfl⟩
  have hSpoilt : (ReferenceLibrary.loadIfPresent 2 Surroundings.spoilt.dataset).toOption.isNone := by
    decide +kernel
  cases hLoad : ReferenceLibrary.loadIfPresent 2 Surroundings.spoilt.dataset with
  | ok library =>
      rw [hLoad] at hSpoilt
      cases hSpoilt
  | error e =>
      have hInsists := Command.insists_generate Surroundings.spoilt "techno" none
        (some "sk-ant-test") none none none
      exact h _ _ _ _ _ _ _ hBare (hInsists.broken e hLoad hBare).1

end Composer
