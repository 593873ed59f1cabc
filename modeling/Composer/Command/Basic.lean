import Composer.Command.Arguments
import Composer.Json.Basic

/-!
The commands of the program: to validate a file of pattern code, to generate a composition, to list
saved songs and to serve.
-/

namespace Composer

inductive Command where
  /-- Validates the code in a file, with overrides of the standard policy. -/
  | validate (path : Text) (overrides : List (Text × Json))
  /-- Generates a composition, from the code in a file if one is to be edited, and saves it in a
  folder if one is named. -/
  | generate (prompt : Text) (model apiKey edited folder title : Option Text)
  | songs (folder : Text)
  | serve (host : Option Text) (port : Option Int)

namespace Command

open Arguments

/-- The options for limits: the name, the limit and what value it has. -/
def limitOptions : List (Text × Text × ValueKind) :=
  [("--max-voices", "maxVoices", .whole), ("--max-lines", "maxLines", .whole),
    ("--max-random-usage", "maxRandomUsage", .whole),
    ("--max-effects-per-voice", "maxEffectsPerVoice", .whole),
    ("--max-delay-feedback", "maxDelayFeedback", .number),
    ("--max-room-size", "maxRoomSize", .number)]

/-- The options that lift a rule: the name, and the rule. -/
def liftOptions : List (Text × Text) :=
  [("--no-setcpm", "requireSetcpm"), ("--allow-remote-samples", "rejectLocalhost")]

/-- The options of each command, and whether it has an operand. -/
def forms : List (Text × List OptionForm × Bool) :=
  [("validate",
      (limitOptions.map fun (name, _, kind) => ⟨name, some kind⟩) ++
        liftOptions.map fun (name, _) => ⟨name, none⟩, true),
    ("generate",
      [⟨"--model", some .text⟩, ⟨"--api-key", some .text⟩, ⟨"--edit", some .text⟩,
        ⟨"--save-dir", some .text⟩, ⟨"--name", some .text⟩], true),
    ("songs", [], true),
    ("serve", [⟨"--host", some .text⟩, ⟨"--port", some .whole⟩], false)]

def valueJson? : ValueKind → Text → Option Json
  | .text, t => some (.str t)
  | .whole, t => (Reading.wholeNumber? t).map .int
  | .number, t => (Reading.number? t).map .float

/-- The overrides that options ask for: limits first, each in its place. -/
def overridesOf (g : Given) : List (Text × Json) :=
  (limitOptions.filterMap fun (name, limit, kind) =>
      ((g.option? name).bind (valueJson? kind)).map fun v => (limit, v)) ++
    liftOptions.filterMap fun (name, rule) => if g.has name then some (rule, .bool false) else none

def nonEmpty (t : Option Text) : Option Text := t.filter (!·.isEmpty)

def ofGiven (name : Text) (g : Given) : Command :=
  let operand := g.operand.getD []
  if name = ("validate" : Text) then .validate operand (overridesOf g)
  else if name = ("generate" : Text) then
    .generate operand (g.option? "--model") (g.option? "--api-key") (nonEmpty (g.option? "--edit"))
      (nonEmpty (g.option? "--save-dir")) (g.option? "--name")
  else if name = ("songs" : Text) then .songs operand
  else
    .serve (nonEmpty (g.option? "--host"))
      (((g.option? "--port").bind Reading.wholeNumber?).filter (· != 0))

def ofArguments (ts : List Text) : Except Refusal Command := do
  let (stray, name, rest) ← Arguments.command false ts
  match forms.lookup name with
  | none => .error .misused
  | some (options, wantsOperand) =>
    let g ← read options wantsOperand rest
    if stray then .error .misused else return ofGiven name g

end Command

end Composer
