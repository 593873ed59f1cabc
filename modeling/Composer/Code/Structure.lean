import Composer.Code.Measure

/-!
The structure that extracted code must have before it is handed on: its first code line sets the
tempo, it opens a voice, and its brackets balance. The first fault found is reported.
-/

namespace Composer

inductive StructureFault where
  | noStatements
  | noLeadingTempo (firstLine : Text)
  | noVoice
  | unbalanced (kind : Measure.Bracket) (opened closed : Nat)
  deriving DecidableEq, Repr

/-- The sentence that reports a fault of structure; of a wrong first line it shows thirty
characters. -/
def StructureFault.message : StructureFault → Text
  | noStatements => "code contains no executable statements"
  | noLeadingTempo line => "code must start with setcpm(...), found: " ++ line.take 30 ++ "..."
  | noVoice => "code must contain at least one voice assignment ($:)"
  | unbalanced kind opened closed =>
    "unbalanced " ++ kind.name ++ ": " ++ Text.ofNat opened ++ " open, " ++ Text.ofNat closed ++
      " close"

/-- Whether a line starts by setting the tempo, with at most one space before the parenthesis. -/
def setsTempoFirst (line : Text) : Bool := line.startsWith "setcpm(" || line.startsWith "setcpm ("

/-- The first fault in the structure of code, if there is one. -/
def structureFault? (code : Text) : Option StructureFault :=
  match Measure.codeLines code with
  | [] => some .noStatements
  | line :: _ =>
    if !setsTempoFirst line then some (.noLeadingTempo line)
    else if !code.contains Measure.voiceMarker then some .noVoice
    else
      (Measure.unbalanced code).head?.map fun (kind, opened, closed) =>
        .unbalanced kind opened closed

end Composer
