import Composer.Prompt.System
import Composer.Proofs.Code.Ceilings
import Composer.Proofs.Text.Joining

/-!
The limits that the instructions show, found again by the words around them. The texts of the
ceilings on strength must be free of commas and line feeds for that, as numerals are.
-/

namespace Composer

namespace Prompt

open Text

/-! ### Reading the limits -/

/-- The ceilings that a prompt shows, as they are written. -/
structure ShownCeilings where
  voices : Text
  effects : Text
  randomness : Text
  strength : Strength → Text

/-- What follows `lead` on the first line that begins with it. -/
def lineAfter? (lead prompt : Text) : Option Text := prompt.lines.findSome? (after? lead)

/-- The ceilings of a prompt, each found by the words around it. -/
def shownCeilings? (prompt : Text) : Option ShownCeilings := do
  let voices ← lineAfter? "3. Declare voices with $: - at least 1, at most " prompt
  let effects ← lineAfter? "4. At most " prompt
  let randomness ← lineAfter? "5. At most " prompt
  let strengths ← lineAfter? "7. .delayfeedback() <= " prompt
  let (voices, _) ← cut? "." voices
  let (effects, _) ← cut? " " effects
  let (randomness, _) ← cut? " " randomness
  let (feedback, strengths) ← cut? ", .room() <= " strengths
  let (room, strengths) ← cut? ", .gain() <= " strengths
  let (gain, _) ← cut? ", .fast() <= " strengths
  let strength : Strength → Text
    | .delayFeedback => feedback
    | .room => room
    | .gain => gain
  some ⟨voices, effects, randomness, strength⟩

/-- The text that is shown for a ceiling. -/
def shownStrength (p : Policy) : Strength → Text
  | .delayFeedback => p.maxDelayFeedback.toRoundedText
  | .room => p.maxRoomSize.toRoundedText
  | .gain => Policy.maxGain.toText

theorem lineAfter?_unlines {first last : List Text} (hFirst : first ≠ []) (hLast : last ≠ [])
    (hLines : ∀ line ∈ first, lineFeed ∉ line) (lead t : Text) :
    lineAfter? lead (unlines (first ++ last) ++ t) =
      (first.findSome? (after? lead)).or (lineAfter? lead (unlines last ++ t)) := by
  unfold lineAfter?
  rw [unlines_append hFirst hLast, List.append_assoc, List.cons_append, lines_append_lineFeed,
    lines_unlines hFirst hLines, List.findSome?_append]

/-- No line before the limits begins with a digit, as those with the limits do. -/
theorem exists_introLines :
    ∃ intro : List Text, musicalDirection = unlines (intro ++ [[]]) ∧ intro ≠ [] ∧
      ∀ line ∈ intro, lineFeed ∉ line ∧ line.head?.any isAsciiDigit = false := by
  refine ⟨List.take 9 _, congrArg unlines (List.take_append_drop 9 _).symm,
    List.cons_ne_nil _ _, ?_⟩
  simp only [List.take_succ_cons, List.take_zero, List.forall_mem_cons]
  refine ⟨?_, ?_, ?_, ?_, ?_, ?_, ?_, ?_, ?_, List.forall_mem_nil _⟩ <;>
    · rw [String.toList_ofList]
      decide

theorem lineAfter?_musicalDirection {d : Char} (hDigit : isAsciiDigit d) (lead t : Text) :
    lineAfter? (d :: lead) (musicalDirection ++ t) = lineAfter? (d :: lead) t := by
  obtain ⟨intro, hText, hIntro, hLines⟩ := exists_introLines
  have hNone : intro.findSome? (after? (d :: lead)) = none := by
    refine List.findSome?_eq_none_iff.2 fun line hLine => ?_
    cases line with
    | nil => rfl
    | cons c line =>
        rw [after?, if_neg (ne_of_isAsciiDigit hDigit (hLines _ hLine).2)]
  rw [hText, lineAfter?_unlines hIntro (List.cons_ne_nil _ _) (fun line h => (hLines line h).1),
    hNone, Option.none_or]
  rfl

/-- The line that begins with `lead` goes on like this, among these lines. -/
def Continues (lines : List Text) (lead rest : Text) : Prop :=
  lines.findSome? (after? lead) = some rest

section
variable (p : Policy) (hPlain : ∀ m, ∀ c ∈ shownStrength p m, c ≠ ',' ∧ c ≠ lineFeed)
include hPlain

/-- The lines with the limits are among the first eight of the constraints. -/
theorem exists_limitLines :
    ∃ first last : List Text, technicalConstraints p = unlines (first ++ last) ∧ first ≠ [] ∧
      last ≠ [] ∧ (∀ line ∈ first, lineFeed ∉ line) ∧
      Continues first "3. Declare voices with $: - at least 1, at most "
        (ofNat p.maxVoices ++ ".") ∧
      Continues first "4. At most " (ofNat p.maxEffectsPerVoice ++ " effects per voice.") ∧
      Continues first "5. At most " (ofNat p.maxRandomUsage ++
        " randomness operations (perlin, rand, irand, sometimes, rarely, ...).") ∧
      Continues first "7. .delayfeedback() <= " (shownStrength p .delayFeedback ++
        ", .room() <= " ++ shownStrength p .room ++ ", .gain() <= " ++ shownStrength p .gain ++
        ", .fast() <= " ++ ofNat Policy.maxFastFactor ++ ".") := by
  have hDigits (n : Nat) : lineFeed ∉ ofNat n := not_mem_ofNat (by decide) n
  have hStrength (m : Strength) : lineFeed ∉ shownStrength p m := fun h => (hPlain m _ h).2 rfl
  have hFeedback : lineFeed ∉ p.maxDelayFeedback.toRoundedText := hStrength .delayFeedback
  have hRoom : lineFeed ∉ p.maxRoomSize.toRoundedText := hStrength .room
  have hGain : lineFeed ∉ Policy.maxGain.toText := hStrength .gain
  -- What follows the eighth line does not matter, for the first line with a lead is the one read.
  refine ⟨List.take 8 _, List.drop 8 _, congrArg unlines (List.take_append_drop 8 _).symm,
    List.cons_ne_nil _ _, List.cons_ne_nil _ _, ?_, ?_, ?_, ?_, ?_⟩
  · simp only [List.take_succ_cons, List.take_zero, List.forall_mem_cons, List.mem_append, not_or]
    refine ⟨?_, ?_, ?_, ⟨⟨?_, hDigits _⟩, ?_⟩, ⟨⟨?_, hDigits _⟩, ?_⟩, ⟨⟨?_, hDigits _⟩, ?_⟩, ?_,
      ⟨⟨⟨⟨⟨⟨⟨⟨?_, hFeedback⟩, ?_⟩, hRoom⟩, ?_⟩, hGain⟩, ?_⟩, hDigits _⟩, ?_⟩,
      List.forall_mem_nil _⟩ <;>
      · rw [String.toList_ofList]
        decide
  · rfl
  · rfl
  · rfl
  · rfl

/-- From the instructions for a policy the limits are read off as they were filled in. -/
theorem shownCeilings?_system :
    shownCeilings? (system p) = some
      { voices := ofNat p.maxVoices, effects := ofNat p.maxEffectsPerVoice
        randomness := ofNat p.maxRandomUsage, strength := shownStrength p } := by
  obtain ⟨first, last, hText, hFirst, hLast, hLines, hVoices, hEffects, hRandomness, hStrengths⟩ :=
    exists_limitLines p hPlain
  have hLine {d : Char} {lead rest : Text} (h : Continues first (d :: lead) rest)
      (hDigit : isAsciiDigit d) : lineAfter? (d :: lead) (system p) = some rest := by
    rw [system, List.append_assoc, List.append_assoc, lineAfter?_musicalDirection hDigit, hText,
      lineAfter?_unlines hFirst hLast hLines, h, Option.some_or]
  have hComma (m : Strength) : ',' ∉ shownStrength p m := fun h => (hPlain m _ h).1 rfl
  have hParts : shownStrength p .delayFeedback ++ ", .room() <= " ++ shownStrength p .room ++
      ", .gain() <= " ++ shownStrength p .gain ++ ", .fast() <= " ++ ofNat Policy.maxFastFactor ++
      "." = shownStrength p .delayFeedback ++ ", .room() <= " ++ (shownStrength p .room ++
        ", .gain() <= " ++ (shownStrength p .gain ++ ", .fast() <= " ++
          (ofNat Policy.maxFastFactor ++ "."))) := by
    simp only [List.append_assoc]
  rw [hParts] at hStrengths
  have hDigits {c : Char} (n : Nat) (h : isAsciiDigit c = false) : c ∉ ofNat n := not_mem_ofNat h n
  unfold shownCeilings?
  refine Option.bind_eq_some_iff.2 ⟨_, hLine hVoices (by decide), ?_⟩
  refine Option.bind_eq_some_iff.2 ⟨_, hLine hEffects (by decide), ?_⟩
  refine Option.bind_eq_some_iff.2 ⟨_, hLine hRandomness (by decide), ?_⟩
  refine Option.bind_eq_some_iff.2 ⟨_, hLine hStrengths (by decide), ?_⟩
  refine Option.bind_eq_some_iff.2 ⟨_, cut?_append_cons (hDigits _ (by decide)) _, ?_⟩
  refine Option.bind_eq_some_iff.2 ⟨_, cut?_append_cons (hDigits _ (by decide)) _, ?_⟩
  refine Option.bind_eq_some_iff.2 ⟨_, cut?_append_cons (hDigits _ (by decide)) _, ?_⟩
  refine Option.bind_eq_some_iff.2 ⟨_, cut?_append_of_not_mem (hComma _) _ _, ?_⟩
  refine Option.bind_eq_some_iff.2 ⟨_, cut?_append_of_not_mem (hComma _) _ _, ?_⟩
  refine Option.bind_eq_some_iff.2 ⟨_, cut?_append_of_not_mem (hComma _) _ _, ?_⟩
  refine congrArg (fun strength => some (ShownCeilings.mk _ _ _ strength)) (funext fun m => ?_)
  cases m <;> rfl

end

end Prompt

end Composer
