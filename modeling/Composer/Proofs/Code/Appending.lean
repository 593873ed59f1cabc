import Composer.Proofs.Code.Judgement
import Composer.Proofs.Code.OpenEnds
import Composer.Proofs.Response.Structure

/-!
Lines appended to code. What the rules count only grows, and what they find once they go on to find:
no rule but those on brackets, on too little code and on a missing tempo can be met by appending
lines. This is so wherever the code breaks off, be it in a call, a literal or a comment that the
appended lines then complete.
-/

namespace Composer

open Text

/-! ### Samples -/

namespace Text

/-- A letter that may be left out, before something that is not empty. -/
theorem readsOn_optional {read : Text → Option Text} (hRead : ReadsOn read) (hNil : read [] = none)
    (c : Char) : ReadsOn fun t => read ((afterFolded? [c] t).getD t) := by
  intro t rest h more
  cases t with
  | nil =>
      have hNone : read [] = some rest := h
      rw [hNil] at hNone
      cases hNone
  | cons d t =>
      cases hLetter : afterFolded? [c] (d :: t) with
      | some u =>
          simp only [hLetter, Option.getD_some, readsOn_afterFolded? _ hLetter more] at h ⊢
          exact hRead h more
      | none =>
          have hOther : afterFolded? [c] (d :: t ++ more) = none := by
            simp only [List.cons_append, afterFolded?] at hLetter ⊢
            split at hLetter
            · cases hLetter
            · next hDiffers => rw [if_neg hDiffers]
          simp only [hLetter, hOther, Option.getD_none] at h ⊢
          exact hRead h more

end Text

namespace Measure

theorem readsOn_sampleCall? : ReadsOn sampleCall? :=
  (readsOn_afterFolded? _).bind (readsOn_optional Call.readsOn_opening? rfl 's')

theorem loadsFromAddress_append {t : Text} (h : loadsFromAddress t) (more : Text) :
    loadsFromAddress (t ++ more) := by
  unfold loadsFromAddress at h ⊢
  cases hCall : sampleCall? t with
  | none => simp [hCall] at h
  | some u =>
      simp only [hCall, readsOn_sampleCall? hCall more] at h ⊢
      cases hArgument : u.skipBlanks with
      | nil => simp [hArgument] at h
      | cons c v =>
          have hFilled : u.skipBlanks ≠ [] := by simp [hArgument]
          simp only [skipBlanks_append hFilled, hArgument, List.cons_append, Bool.and_eq_true] at h ⊢
          refine ⟨h.1, ?_⟩
          cases hScheme : afterFolded? "http" v with
          | none =>
              rw [hScheme] at h
              exact absurd h.2 Bool.false_ne_true
          | some w =>
              simp only [hScheme, readsOn_afterFolded? _ hScheme more] at h ⊢
              exact (readsOn_optional (readsOn_after? "://") rfl 's').isSome h.2 more

theorem awaitsSamples_append {t : Text} (h : awaitsSamples t) (more : Text) :
    awaitsSamples (t ++ more) := by
  unfold awaitsSamples at h ⊢
  cases hAwait : afterFolded? "await" t with
  | none =>
      rw [hAwait] at h
      exact absurd h Bool.false_ne_true
  | some v =>
      cases v with
      | nil =>
          rw [hAwait] at h
          exact absurd h Bool.false_ne_true
      | cons c u =>
          simp only [hAwait, readsOn_afterFolded? _ hAwait more, List.cons_append,
            Bool.and_eq_true] at h ⊢
          have hFilled : skipBlanks u ≠ [] := by
            intro hEmpty
            rw [hEmpty] at h
            exact absurd h.2 (by decide)
          rw [skipBlanks_append hFilled]
          exact ⟨h.1, readsOn_sampleCall?.isSome h.2 more⟩

theorem loadsForeignSamples_append {code : Text} (h : loadsForeignSamples code) (more : Text) :
    loadsForeignSamples (code ++ more) := by
  refine anywhere_append (fun t ht => ?_) h
  rw [Bool.or_eq_true] at ht ⊢
  exact ht.imp (loadsFromAddress_append · more) (awaitsSamples_append · more)

/-! ### What is counted -/

theorem voices_append_lineFeed (code more : Text) :
    voices (code ++ lineFeed :: more) = voices code + voices more := by
  have hFeed : lineFeed ∉ voiceMarker := by decide
  have hMarker (t : Text) :
      (t ++ lineFeed :: more).startsWith voiceMarker = t.startsWith voiceMarker := by
    rw [startsWith, startsWith, after?_append_cons hFeed, Option.isSome_map]
  induction code with
  | nil =>
      have hNone : startsWith (lineFeed :: more) voiceMarker = false := hMarker []
      simp only [voices, List.nil_append, countWhere, hNone, Bool.false_eq_true, if_false,
        Nat.zero_add]
  | cons c code ih =>
      have hHere := hMarker (c :: code)
      simp only [voices, List.cons_append, countWhere] at ih hHere ⊢
      rw [ih, hHere, Nat.add_assoc]

theorem lineCount_append_lineFeed (code more : Text) :
    lineCount (code ++ lineFeed :: more) = lineCount code + lineCount more := by
  rw [lineCount, codeLines_append_lineFeed, List.length_append]
  rfl

theorem isPerlin_append {t : Text} (h : isPerlin t) (more : Text) :
    isPerlin (t ++ lineFeed :: more) := by
  unfold isPerlin at h ⊢
  cases hWord : after? "perlin" t with
  | none =>
      rw [hWord] at h
      exact absurd h Bool.false_ne_true
  | some rest =>
      rw [readsOn_after? _ hWord]
      cases rest with
      | nil => rfl
      | cons c rest =>
          rw [hWord] at h
          exact h

theorem randomUses_add_le (code more : Text) :
    randomUses code + randomUses more ≤ randomUses (code ++ lineFeed :: more) := by
  let isSource (t : Text) : Bool := (Call.oneOf? ["rand", "irand"] t).isSome
  let isChance (t : Text) : Bool := (Call.methodOf? chanceMethods t).isSome
  have hSource (t : Text) (h : isSource t) : isSource (t ++ lineFeed :: more) :=
    Call.isSome_oneOf?_append h _
  have hChance (t : Text) (h : isChance t) : isChance (t ++ lineFeed :: more) :=
    Call.isSome_methodOf?_append h _
  have hPerlin (t : Text) (h : isPerlin t) : isPerlin (t ++ lineFeed :: more) :=
    isPerlin_append h more
  have hSources := Call.countAtWordBorder_add_le hSource none code
  have hNoise := Call.countAtWordBorder_add_le hPerlin none code
  have hMethods := countWhere_add_le hChance code
  have hLater : countWhere isChance more ≤ countWhere isChance (lineFeed :: more) :=
    Nat.le_add_left _ _
  show Call.countAtWordBorder isSource none code + Call.countAtWordBorder isPerlin none code +
      countWhere isChance code + (Call.countAtWordBorder isSource none more +
        Call.countAtWordBorder isPerlin none more + countWhere isChance more) ≤
    Call.countAtWordBorder isSource none (code ++ lineFeed :: more) +
      Call.countAtWordBorder isPerlin none (code ++ lineFeed :: more) +
      countWhere isChance (code ++ lineFeed :: more)
  omega

theorem maxEffectsOnVoice_append_lineFeed (code more : Text) :
    maxEffectsOnVoice (code ++ lineFeed :: more) =
      max (maxEffectsOnVoice code) (maxEffectsOnVoice more) := by
  have hMax (counts : List Nat) (n : Nat) : counts.foldr max n = max (counts.foldr max 0) n :=
    calc counts.foldr max n
      _ = counts.foldr max (max 0 n) := by rw [Nat.zero_max]
      _ = max (counts.foldr max 0) n := List.foldr_assoc
  rw [maxEffectsOnVoice, lines_append_lineFeed, List.filter_append, List.map_append,
    List.foldr_append, hMax]
  rfl

/-! ### Calls with an argument -/

theorem hasExtremeEffects_append {p : Policy} {code : Text} (h : hasExtremeEffects p code)
    (more : Text) : hasExtremeEffects p (code ++ lineFeed :: more) := by
  have hAny {name : Text} (hPoint : '.' ∉ name) (hFeed : lineFeed ∉ name) {ceiling : Binary64}
      (hFound : (arguments name code).any ceiling.lt) :
      (arguments name (code ++ lineFeed :: more)).any ceiling.lt := by
    have hPrefix := (Call.unbroken_methodWithDecimal? hPoint hFeed).prefix_findAll code more
    rw [List.any_eq_true] at hFound ⊢
    obtain ⟨x, hx, hExceeds⟩ := hFound
    exact ⟨x, hPrefix.subset hx, hExceeds⟩
  simp only [hasExtremeEffects, Bool.or_eq_true] at h ⊢
  exact h.imp (Or.imp (hAny (by decide) (by decide)) (hAny (by decide) (by decide)))
    (hAny (by decide) (by decide))

theorem prefix_fastFactors (code more : Text) :
    fastFactors code <+: fastFactors (code ++ lineFeed :: more) :=
  (Call.unbroken_methodWithDigits? (by decide) (by decide)).prefix_findAll code more

theorem hasNinthOctave_append {code : Text} (h : hasNinthOctave code) (more : Text) :
    hasNinthOctave (code ++ lineFeed :: more) := by
  have hPrefix := Call.unbroken_noteWithString?.prefix_findAll code more
  unfold hasNinthOctave at h ⊢
  rw [List.any_eq_true] at h ⊢
  obtain ⟨text, hText, hHigh⟩ := h
  exact ⟨text, hPrefix.subset hText, hHigh⟩

end Measure

/-! ### Issues -/

/-- Whether appending lines can never mend an issue. Missing brackets, a missing tempo and missing
lines may yet come. -/
def Issue.isLasting : Issue → Bool
  | tooShort => false
  | noTempo => false
  | unbalanced .. => false
  | unbalancedGroups .. => false
  | _ => true

/-- An issue that is found again in more code, where what it counts may have grown. -/
inductive Issue.Grows : Issue → Issue → Prop where
  | voices {found more limit : Nat} (h : found ≤ more) :
      Grows (.tooManyVoices found limit) (.tooManyVoices more limit)
  | lines {found more limit : Nat} (h : found ≤ more) :
      Grows (.tooLong found limit) (.tooLong more limit)
  | random {found more limit : Nat} (h : found ≤ more) :
      Grows (.tooRandom found limit) (.tooRandom more limit)
  | same (issue : Issue) : Grows issue issue

namespace Validation

/-- What the rules measure in code and in the same code with lines appended to it. -/
structure Appended (p : Policy) (code more whole : Text) : Prop where
  voices : Measure.voices whole = Measure.voices code + Measure.voices more
  lines : Measure.lineCount whole = Measure.lineCount code + Measure.lineCount more
  randomness : Measure.randomUses code + Measure.randomUses more ≤ Measure.randomUses whole
  effects : Measure.maxEffectsOnVoice whole =
    max (Measure.maxEffectsOnVoice code) (Measure.maxEffectsOnVoice more)
  samples : Measure.loadsForeignSamples code → Measure.loadsForeignSamples whole
  strength : Measure.hasExtremeEffects p code → Measure.hasExtremeEffects p whole
  methods : methodIssues code ⊆ methodIssues whole

theorem mem_issueIf_iff {fails : Bool} {issue other : Issue} :
    other ∈ issueIf fails issue ↔ fails ∧ other = issue := by
  cases fails <;> simp [issueIf]

theorem methodIssues_subset (code more : Text) :
    methodIssues code ⊆ methodIssues (code ++ lineFeed :: more) := by
  intro issue h
  rw [methodIssues, List.mem_append, mem_issueIf_iff] at h ⊢
  exact h.imp (List.map_subset _ (Measure.unsupportedMethods_subset code more) ·)
    fun h => ⟨Measure.callsMethodOnString_append h.1 more, h.2⟩

theorem appended (p : Policy) (code more : Text) :
    Appended p code more (code ++ lineFeed :: more) where
  voices := Measure.voices_append_lineFeed code more
  lines := Measure.lineCount_append_lineFeed code more
  randomness := Measure.randomUses_add_le code more
  effects := Measure.maxEffectsOnVoice_append_lineFeed code more
  samples := fun h => Measure.loadsForeignSamples_append h _
  strength := fun h => Measure.hasExtremeEffects_append h more
  methods := methodIssues_subset code more

/-- A factor above the ceiling is found whatever factors come after it. -/
theorem exceedsFactor_append {factors : List Text} (h : exceedsFactor factors = .ok true)
    (more : List Text) : exceedsFactor (factors ++ more) = .ok true := by
  induction factors with
  | nil => exact absurd h (by simp [exceedsFactor])
  | cons digits factors ih =>
      unfold exceedsFactor at h
      rw [List.cons_append, exceedsFactor]
      by_cases hLong : Reading.digitLimit < digits.length
      · rw [if_pos hLong] at h
        cases h
      · rw [if_neg hLong] at h ⊢
        by_cases hFast : Policy.maxFastFactor < digitsValue digits
        · rw [if_pos hFast]
        · rw [if_neg hFast] at h ⊢
          exact ih h

/-- The dangers of code that can be judged with the appended lines are among those of the whole. -/
theorem dangerIssues_subset {code more : Text} {found longer : List Issue}
    (hFound : dangerIssues code = .ok found)
    (hLonger : dangerIssues (code ++ lineFeed :: more) = .ok longer) : found ⊆ longer := by
  unfold dangerIssues at hFound hLonger
  cases hFast : exceedsFactor (Measure.fastFactors code) with
  | error error => simp [hFast, Except.map] at hFound
  | ok tooFast =>
      cases hFaster : exceedsFactor (Measure.fastFactors (code ++ lineFeed :: more)) with
      | error error => simp [hFaster, Except.map] at hLonger
      | ok stillTooFast =>
          simp only [hFast, hFaster, Except.map, Except.ok.injEq] at hFound hLonger
          subst hFound hLonger
          have hStill : tooFast → stillTooFast := by
            rintro rfl
            obtain ⟨factors, hFactors⟩ := Measure.prefix_fastFactors code more
            rw [← hFactors, exceedsFactor_append hFast factors] at hFaster
            exact (Except.ok.inj hFaster).symm
          intro issue h
          rw [List.mem_append, mem_issueIf_iff, mem_issueIf_iff] at h ⊢
          exact h.imp (fun h => ⟨hStill h.1, h.2⟩)
            fun h => ⟨Measure.hasNinthOctave_append h.1 more, h.2⟩

/-- Every lasting issue is found again. -/
def Keeps (found longer : List Issue) : Prop :=
  ∀ issue ∈ found, issue.isLasting → ∃ other ∈ longer, issue.Grows other

theorem Keeps.append {first second firstLonger secondLonger : List Issue}
    (hFirst : Keeps first firstLonger) (hSecond : Keeps second secondLonger) :
    Keeps (first ++ second) (firstLonger ++ secondLonger) := by
  intro issue hIssue hLasting
  rcases List.mem_append.1 hIssue with hIn | hIn
  · obtain ⟨other, hOther, hGrows⟩ := hFirst issue hIn hLasting
    exact ⟨other, List.mem_append_left _ hOther, hGrows⟩
  · obtain ⟨other, hOther, hGrows⟩ := hSecond issue hIn hLasting
    exact ⟨other, List.mem_append_right _ hOther, hGrows⟩

theorem keeps_of_subset {found longer : List Issue} (h : found ⊆ longer) : Keeps found longer :=
  fun issue hIssue _ => ⟨issue, h hIssue, .same issue⟩

/-- Issues that may be mended ask for nothing. -/
theorem keeps_of_not_lasting {found : List Issue} (h : ∀ issue ∈ found, issue.isLasting = false)
    (longer : List Issue) : Keeps found longer := by
  intro issue hIssue hLasting
  rw [h issue hIssue] at hLasting
  exact absurd hLasting Bool.false_ne_true

theorem keeps_issueIf {fails still : Bool} {issue other : Issue} (hStill : fails → still)
    (hGrows : issue.Grows other) : Keeps (issueIf fails issue) (issueIf still other) := by
  intro found hFound _
  obtain ⟨hFails, rfl⟩ := mem_issueIf_iff.1 hFound
  exact ⟨other, mem_issueIf_iff.2 ⟨hStill hFails, rfl⟩, hGrows⟩

/-- A count above its limit stays there when it grows. -/
theorem keeps_issueIf_lt {limit count grown : Nat} {issue other : Issue} (hCount : count ≤ grown)
    (hGrows : issue.Grows other) :
    Keeps (issueIf (limit < count) issue) (issueIf (limit < grown) other) := by
  apply keeps_issueIf _ hGrows
  intro hFails
  rw [decide_eq_true_eq] at hFails ⊢
  exact hFails.trans_le hCount

theorem isLasting_of_mem_balanceIssues {code : Text} :
    ∀ issue ∈ balanceIssues code, issue.isLasting = false := by
  unfold balanceIssues
  rw [List.forall_mem_append]
  exact ⟨List.forall_mem_map.2 fun _ _ => rfl, List.forall_mem_map.2 fun _ _ => rfl⟩

theorem isLasting_of_mem_issueIf {fails : Bool} {issue : Issue} (h : issue.isLasting = false) :
    ∀ found ∈ issueIf fails issue, found.isLasting = false := by
  intro found hFound
  rw [(mem_issueIf_iff.1 hFound).2, h]

/-- What is found by measuring is found again. -/
theorem Appended.keeps {p : Policy} {code more whole : Text} (h : Appended p code more whole) :
    Keeps (measuredIssues p code) (measuredIssues p whole) := by
  have hVoices : Measure.voices code ≤ Measure.voices whole := h.voices ▸ Nat.le_add_right _ _
  have hLines : Measure.lineCount code ≤ Measure.lineCount whole := h.lines ▸ Nat.le_add_right _ _
  have hRandom : Measure.randomUses code ≤ Measure.randomUses whole :=
    (Nat.le_add_right _ _).trans h.randomness
  have hEffects : Measure.maxEffectsOnVoice code ≤ Measure.maxEffectsOnVoice whole :=
    h.effects ▸ Nat.le_max_left _ _
  refine .append (.append (.append (.append (.append (.append (.append (.append (.append
    ?voices ?long) ?short) ?tempo) ?samples) ?random) ?strength) ?balance) ?methods) ?density
  case voices => exact keeps_issueIf_lt hVoices (.voices hVoices)
  case long => exact keeps_issueIf_lt hLines (.lines hLines)
  case short => exact keeps_of_not_lasting (isLasting_of_mem_issueIf rfl) _
  case tempo => exact keeps_of_not_lasting (isLasting_of_mem_issueIf rfl) _
  case samples =>
    apply keeps_issueIf _ (.same _)
    intro hFails
    rw [Bool.and_eq_true] at hFails ⊢
    exact ⟨hFails.1, h.samples hFails.2⟩
  case random => exact keeps_issueIf_lt hRandom (.random hRandom)
  case strength => exact keeps_issueIf h.strength (.same _)
  case balance => exact keeps_of_not_lasting isLasting_of_mem_balanceIssues _
  case methods => exact keeps_of_subset h.methods
  case density => exact keeps_issueIf_lt hEffects (.same _)

/-- Appended lines hide nothing. Voices and code lines add up, uses of randomness at least add up,
and the densest voice is the densest of both parts. Foreign samples, extreme effects, wrong methods
and dangers are found again, and so are all issues that lines which are yet to come cannot mend. -/
theorem appending_hides_nothing {p : Policy} {code more : Text} {verdict longer : Verdict}
    (hJudged : validate p code = .ok verdict)
    (hLonger : validate p (code ++ lineFeed :: more) = .ok longer) :
    Appended p code more (code ++ lineFeed :: more) ∧
    (∃ danger others, dangerIssues code = .ok danger ∧
      dangerIssues (code ++ lineFeed :: more) = .ok others ∧ danger ⊆ others) ∧
    ∃ found others, issues p code = .ok found ∧
      issues p (code ++ lineFeed :: more) = .ok others ∧ Keeps found others := by
  obtain ⟨danger, hDanger, -⟩ := exists_dangerIssues_of_validate hJudged
  obtain ⟨others, hOthers, -⟩ := exists_dangerIssues_of_validate hLonger
  have hSubset := dangerIssues_subset hDanger hOthers
  have hAppended := appended p code more
  exact ⟨hAppended, ⟨danger, others, hDanger, hOthers, hSubset⟩, _, _,
    issues_of_dangerIssues hDanger p, issues_of_dangerIssues hOthers p,
    hAppended.keeps.append (keeps_of_subset hSubset)⟩

def soloPolicy : Policy := { Policy.standard with maxVoices := 1 }

/-- Code that breaks off in a comment, in the argument of a call. -/
def brokenOffCode : Text := "$: $: note(\"c9\").note( /* low"

def closingCode : Text := "$: */ 3)"

/-- The appended lines end the comment and close the parenthesis, and mend nothing else. -/
theorem appending_hides_nothing_of_brokenOff :
    ∃ verdict longer : Verdict, validate soloPolicy brokenOffCode = .ok verdict ∧
      validate soloPolicy (brokenOffCode ++ lineFeed :: closingCode) = .ok longer ∧
      verdict.issues.length = 6 ∧ longer.issues.length = 5 ∧
      Appended soloPolicy brokenOffCode closingCode (brokenOffCode ++ lineFeed :: closingCode) ∧
      (∃ danger others, dangerIssues brokenOffCode = .ok danger ∧
        dangerIssues (brokenOffCode ++ lineFeed :: closingCode) = .ok others ∧ danger ⊆ others) ∧
      ∃ found others, issues soloPolicy brokenOffCode = .ok found ∧
        issues soloPolicy (brokenOffCode ++ lineFeed :: closingCode) = .ok others ∧
        Keeps found others := by
  have hJudged : validate soloPolicy brokenOffCode = .ok
      ⟨[Issue.tooManyVoices 2 1, .tooShort, .noTempo, .unbalanced .parentheses 2 1,
        .unsupportedMethod .note, .tooHigh].map Issue.message⟩ :=
    eq_ok_of_toOption (by decide +kernel)
  have hLonger : validate soloPolicy (brokenOffCode ++ lineFeed :: closingCode) = .ok
      ⟨[Issue.tooManyVoices 3 1, .tooShort, .noTempo, .unsupportedMethod .note,
        .tooHigh].map Issue.message⟩ :=
    eq_ok_of_toOption (by decide +kernel)
  exact ⟨_, _, hJudged, hLonger, rfl, rfl, appending_hides_nothing hJudged hLonger⟩

end Validation

end Composer
