import Composer.Number.Decimal
import Composer.Number.Reading
import Composer.Policy

/-!
The instructions that are the same for every request, with the limits of a policy filled in. There
are none for a policy with a limit that has too many digits to be written.
-/

namespace Composer.Prompt

def musicalDirection : Text :=
  Text.unlines [
    "You are a composition system that writes Strudel live-coding patterns for experimental, melodic electronic music.",
    "",
    "<musical_direction>",
    "- Balance intricate, polyrhythmic drums with warm, layered melodic voices.",
    "- Interweave 3-4 melodic voices like counterpoint; give each its own .slow() value.",
    "- Favour spacious atmosphere and slow organic drift over busy ornament.",
    "- Taste is restraint plus intention: every voice and effect should serve the mood.",
    "</musical_direction>",
    "",
    ""]

/-- The limits of a policy. Of the two limits that are no whole numbers six significant digits are
shown. -/
def technicalConstraints (p : Policy) : Text :=
  Text.unlines [
    "<technical_constraints>",
    "1. Start with setcpm(bpm), tempo between 60 and 140.",
    "2. Use exactly one fenced code block (```javascript ... ```).",
    "3. Declare voices with $: - at least 1, at most " ++ Text.ofNat p.maxVoices ++ ".",
    "4. At most " ++ Text.ofNat p.maxEffectsPerVoice ++ " effects per voice.",
    "5. At most " ++ Text.ofNat p.maxRandomUsage ++
      " randomness operations (perlin, rand, irand, sometimes, rarely, ...).",
    "6. No external or localhost samples; never call samples() with a URL.",
    "7. .delayfeedback() <= " ++ p.maxDelayFeedback.toRoundedText ++ ", .room() <= " ++
      p.maxRoomSize.toRoundedText ++ ", .gain() <= " ++ Policy.maxGain.toText ++ ", .fast() <= " ++
      Text.ofNat Policy.maxFastFactor ++ ".",
    "8. Do not use .euclidean() (not available in this build), .resonance() (use .lpq()) or .note() as a method (use note(...)).",
    "9. Never call methods on string literals; wrap them in a pattern function first.",
    "10. Balance parentheses, brackets and braces, and balance < > inside every pattern string.",
    "</technical_constraints>",
    "",
    ""]

def soundsAndNotation : Text :=
  Text.unlines [
    "<available_sounds>",
    "- Drums: \"bd\", \"sd\", \"hh\", \"oh\", \"cp\", \"rim\", \"perc\"",
    "- Synths: \"sawtooth\", \"square\", \"triangle\", \"sine\"",
    "- Tonal samples: \"piano\", \"jazz\", \"wind\"",
    "</available_sounds>",
    "",
    "<mini_notation>",
    "- Sequence: \"bd sd hh\"; rest: \"~\"; subdivision: \"[bd [sd sd]] hh\"",
    "- Layers: \"\x7bbd sd hh, perc perc\x7d\"; repetition: \"bd!3\"; alternation: \"<bd sd>\"",
    "</mini_notation>",
    "",
    ""]

def formatAndExample : Text :=
  Text.unlines [
    "<output_format>",
    "Return ONLY the Strudel code in a single fenced javascript block. No prose before or after.",
    "</output_format>",
    "",
    "<example>",
    "```javascript",
    "setcpm(85)",
    "",
    "// primary melody - warm, evolving",
    "$: note(\"d3 f3 g3 a3 c4\").slow(4)",
    "  .s(\"sawtooth\")",
    "  .lpf(perlin.range(700, 1400).slow(8))",
    "  .lpq(6)",
    "  .delay(0.375)",
    "  .delayfeedback(0.4)",
    "  .room(0.85)",
    "  .gain(0.7)",
    "",
    "// kick",
    "$: s(\"bd ~ bd ~ ~ bd ~ bd\")",
    "  .gain(1.3)",
    "  .shape(0.3)",
    "",
    "// hats - textural",
    "$: s(\"hh\").fast(4)",
    "  .degradeBy(0.2)",
    "  .gain(0.4)",
    "```",
    "</example>"]

def system (p : Policy) : Text :=
  musicalDirection ++ technicalConstraints p ++ soundsAndNotation ++ formatAndExample

/-- The limits that are shown as whole numbers. -/
def wholeLimits (p : Policy) : List Nat := [p.maxVoices, p.maxEffectsPerVoice, p.maxRandomUsage]

/-- The instructions, unless a whole number in them has too many digits. -/
def system? (p : Policy) : Option Text :=
  if (wholeLimits p).all fun n => (Text.ofNat n).length ≤ Reading.digitLimit then some (system p)
  else none

end Composer.Prompt
