import Composer.Field.Reading

/-!
The limits that pattern code is held to, and how they are overridden. A limit has an external name
in camel case and an internal one in snake case; either names it in an override.

Overriding is one check of all fields: the limits in force, with the overrides put in their places,
are read as one object, and either all of it is sound or every fault is reported.
-/

namespace Composer

structure Policy where
  maxVoices : Nat
  maxLines : Nat
  maxRandomUsage : Nat
  maxEffectsPerVoice : Nat
  requireTempo : Bool
  rejectForeignSamples : Bool
  maxDelayFeedback : Binary64
  maxRoomSize : Binary64
  deriving DecidableEq, Repr, Inhabited

namespace Policy

/-- Code has at least this many lines, whatever the policy. -/
def minLines : Nat := 5

def maxGain : Binary64 := .ofInt 2

/-- The greatest factor of acceleration, whatever the policy. -/
def maxFastFactor : Nat := 64

def standard : Policy where
  maxVoices := 8
  maxLines := 250
  maxRandomUsage := 15
  maxEffectsPerVoice := 8
  requireTempo := true
  rejectForeignSamples := true
  maxDelayFeedback := .ofDecimal false 7 (-1)
  maxRoomSize := .ofDecimal false 95 (-2)

def names : List (Text × Text) :=
  [("max_voices", "maxVoices"), ("max_lines", "maxLines"), ("max_random_usage", "maxRandomUsage"),
    ("max_effects_per_voice", "maxEffectsPerVoice"), ("require_setcpm", "requireSetcpm"),
    ("reject_localhost", "rejectLocalhost"), ("max_delay_feedback", "maxDelayFeedback"),
    ("max_room_size", "maxRoomSize")]

/-- The external name of a limit given by either name; any other name stands for itself. -/
def externalName (name : Text) : Text := (names.lookup name).getD name

def toMembers (p : Policy) : List (Text × Json) :=
  [("maxVoices", .int p.maxVoices), ("maxLines", .int p.maxLines),
    ("maxRandomUsage", .int p.maxRandomUsage), ("maxEffectsPerVoice", .int p.maxEffectsPerVoice),
    ("requireSetcpm", .bool p.requireTempo), ("rejectLocalhost", .bool p.rejectForeignSamples),
    ("maxDelayFeedback", .float p.maxDelayFeedback), ("maxRoomSize", .float p.maxRoomSize)]

/-- The limits that an object with external names holds, the standard ones where it is silent. -/
def ofMembers (found : List (Text × Json)) : Checked Policy :=
  (fun voices lines random effects tempo samples feedback room (_ : Unit) =>
      (⟨voices, lines, random, effects, tempo, samples, feedback, room⟩ : Policy))
    <$> Field.defaulted "maxVoices" standard.maxVoices (Field.integerFrom 0) found
    <*> Field.defaulted "maxLines" standard.maxLines (Field.integerFrom 0) found
    <*> Field.defaulted "maxRandomUsage" standard.maxRandomUsage (Field.integerFrom 0) found
    <*> Field.defaulted "maxEffectsPerVoice" standard.maxEffectsPerVoice (Field.integerFrom 0) found
    <*> Field.defaulted "requireSetcpm" standard.requireTempo Field.flag found
    <*> Field.defaulted "rejectLocalhost" standard.rejectForeignSamples Field.flag found
    <*> Field.defaulted "maxDelayFeedback" standard.maxDelayFeedback Field.ceiling found
    <*> Field.defaulted "maxRoomSize" standard.maxRoomSize Field.ceiling found
    <*> Field.onlyNamed (names.map Prod.snd) found

/-- One override put in its place; a null one changes nothing. -/
def overrideMember (found : List (Text × Json)) (entry : Text × Json) : List (Text × Json) :=
  match entry.2 with
  | .null => found
  | value => Json.setMember (externalName entry.1) value found

/-- The policy with overrides applied in order, or all faults of the outcome. -/
def merge (p : Policy) (overrides : List (Text × Json)) : Checked Policy :=
  if overrides.isEmpty then .sound p
  else ofMembers (overrides.foldl overrideMember p.toMembers)

def faultMessage (faults : List Fault) : Text :=
  "invalid validation policy: " ++ faultHeadline faults "ValidationPolicy"

end Policy

end Composer
