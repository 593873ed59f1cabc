import Composer.Code.Measure
import Composer.Number.Decimal

/-!
The content rules. Every rule is applied, in a fixed order, and each that fails adds its issues, so
that one answer names everything there is to mend.

Validation refuses to judge only one kind of code: a factor of acceleration with more digits than
are converted to a number.
-/

namespace Composer

inductive Issue where
  | tooManyVoices (found limit : Nat)
  | tooLong (found limit : Nat)
  | tooShort
  | noTempo
  | foreignSamples
  | tooRandom (found limit : Nat)
  | extremeEffects (maxDelayFeedback maxRoomSize : Binary64)
  | unbalanced (kind : Measure.Bracket) (opened closed : Nat)
  | unbalancedGroups (opened closed : Nat) (l : StringLiteral)
  | unsupportedMethod (method : Measure.UnsupportedMethod)
  | methodOnString
  | tooManyEffects (limit : Nat)
  | tooFast
  | tooHigh
  deriving DecidableEq, Repr

namespace Issue

def ratio (found limit : Nat) : Text := Text.ofNat found ++ "/" ++ Text.ofNat limit

def message : Issue → Text
  | tooManyVoices found limit =>
    "too many voices (" ++ ratio found limit ++ " max) - simplify to fewer tracks"
  | tooLong found limit => "code too long (" ++ ratio found limit ++ " lines max) - simplify"
  | tooShort => "code too short - add more content"
  | noTempo => "missing setcpm() - set tempo at the start"
  | foreignSamples => "uses external/localhost samples - only use built-in samples"
  | tooRandom found limit =>
    "excessive randomness (" ++ ratio found limit ++ " max) - reduce variation techniques"
  | extremeEffects maxDelayFeedback maxRoomSize =>
    "extreme effect values detected - reduce delay feedback (max " ++ maxDelayFeedback.toText ++
      "), reverb (max " ++ maxRoomSize.toText ++ "), or gain (max " ++ Policy.maxGain.toText ++ ")"
  | unbalanced kind opened closed =>
    "unbalanced " ++ kind.name ++ ": " ++ Text.ofNat opened ++ " opening '" ++ [kind.opening] ++
      "' vs " ++ Text.ofNat closed ++ " closing '" ++ [kind.closing] ++ "'"
  | unbalancedGroups opened closed l =>
    "unbalanced mini-notation: " ++ Text.ofNat opened ++ " opening '<' vs " ++ Text.ofNat closed ++
      " closing '>' in pattern " ++ l.source
  | unsupportedMethod .note => "invalid method .note(...) - use note(...) or .detune(...) instead"
  | unsupportedMethod .resonance => "invalid method .resonance(...) - use .lpq(...) instead"
  | unsupportedMethod .euclidean => "invalid method .euclidean(...) - not available in this build"
  | methodOnString =>
    "string literal method call detected - apply transforms to patterns, not strings"
  | tooManyEffects limit =>
    "too many effects on a single voice (max " ++ Text.ofNat limit ++ ") - simplify effect chains"
  | tooFast =>
    "extremely fast pattern detected (>" ++ Text.ofNat Policy.maxFastFactor ++
      "x) - may cause audio glitches"
  | tooHigh => "extremely high note values detected - may cause issues"

end Issue

/-- The judgement on pattern code: it is valid exactly when there are no issues. -/
structure Verdict where
  issues : List Text
  deriving DecidableEq, Repr, Inhabited

def Verdict.valid (v : Verdict) : Bool := v.issues.isEmpty

/-- A judgement given as an object. A truth value that contradicts the issues is a fault of the
whole. -/
def Verdict.ofJson (found : Json) : Checked Verdict :=
  (Field.members .modelType found).andThen fun ms =>
    ((fun valid issues (_ : Unit) => (valid, issues))
        <$> Field.required "valid" Field.flag ms
        <*> Field.defaulted "issues" [] (Field.list Field.text) ms
        <*> Field.onlyNamed ["valid", "issues"] ms).andThen fun (valid, issues) =>
      if valid = issues.isEmpty then .sound ⟨issues⟩ else .refuse .valueError found

inductive ValidationError where
  /-- A factor has this many digits, more than are converted to a number. -/
  | oversizedFactor (digits : Nat)
  deriving DecidableEq, Repr

/-- The sentence that reports why code cannot be judged. -/
def ValidationError.message : ValidationError → Text
  | oversizedFactor digits => Reading.oversizedMessage digits

namespace Validation

def issueIf (fails : Bool) (issue : Issue) : List Issue := if fails then [issue] else []

def balanceIssues (code : Text) : List Issue :=
  ((Measure.unbalanced code).map fun (kind, opened, closed) => .unbalanced kind opened closed) ++
    (Measure.unbalancedGroups code).map fun (l, opened, closed) => .unbalancedGroups opened closed l

/-- Methods that do not exist, and methods on string literals. -/
def methodIssues (code : Text) : List Issue :=
  (Measure.unsupportedMethods code).map .unsupportedMethod ++
    issueIf (Measure.callsMethodOnString code) .methodOnString

/-- Whether some factor exceeds the ceiling; factors are read from left to right up to the first
that does, and one with too many digits ends the reading. -/
def exceedsFactor : List Text → Except ValidationError Bool
  | [] => .ok false
  | digits :: rest =>
    if Reading.digitLimit < digits.length then .error (.oversizedFactor digits.length)
    else if Policy.maxFastFactor < digitsValue digits then .ok true
    else exceedsFactor rest

def dangerIssues (code : Text) : Except ValidationError (List Issue) :=
  (exceedsFactor (Measure.fastFactors code)).map fun tooFast =>
    issueIf tooFast .tooFast ++ issueIf (Measure.hasNinthOctave code) .tooHigh

def measuredIssues (p : Policy) (code : Text) : List Issue :=
  issueIf (p.maxVoices < Measure.voices code)
      (.tooManyVoices (Measure.voices code) p.maxVoices) ++
    issueIf (p.maxLines < Measure.lineCount code)
      (.tooLong (Measure.lineCount code) p.maxLines) ++
    issueIf (Measure.lineCount code < Policy.minLines) .tooShort ++
    issueIf (p.requireTempo && !Measure.setsTempo code) .noTempo ++
    issueIf (p.rejectForeignSamples && Measure.loadsForeignSamples code) .foreignSamples ++
    issueIf (p.maxRandomUsage < Measure.randomUses code)
      (.tooRandom (Measure.randomUses code) p.maxRandomUsage) ++
    issueIf (Measure.hasExtremeEffects p code)
      (.extremeEffects p.maxDelayFeedback p.maxRoomSize) ++
    balanceIssues code ++
    methodIssues code ++
    issueIf (p.maxEffectsPerVoice < Measure.maxEffectsOnVoice code)
      (.tooManyEffects p.maxEffectsPerVoice)

end Validation

/-- All issues of pattern code under a policy, in the order of the rules. -/
def issues (p : Policy) (code : Text) : Except ValidationError (List Issue) :=
  (Validation.dangerIssues code).map (Validation.measuredIssues p code ++ ·)

def validate (p : Policy) (code : Text) : Except ValidationError Verdict :=
  (issues p code).map fun found => ⟨found.map Issue.message⟩

end Composer
