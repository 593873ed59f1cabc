import Composer.Environment
import Composer.Policy

/-!
Settings, and how they are read from an environment. Composition is held to tighter limits than the
standard policy.
-/

namespace Composer

structure Settings where
  defaultModel : Text
  maxTokens : Nat
  chatHistoryLimit : Nat
  policy : Policy
  host : Text
  port : Int
  deriving DecidableEq, Repr, Inhabited

inductive SettingsError where
  | policy (faults : List Fault)
  | fields (faults : List Fault)

/-- The sentence that reports why settings cannot be used; only its first line. -/
def SettingsError.message : SettingsError → Text
  | policy faults => Policy.faultMessage faults
  | fields faults => faultHeadline faults "GenerationSettings"

namespace Settings

def standardModel : Text := "claude-sonnet-4-20250514"

/-- The settings that given members and a policy make up, with defaults where the members are
silent. -/
def ofMembers (p : Policy) (ms : List (Text × Json)) : Checked Settings :=
  (fun model tokens limit host port (_ : Unit) =>
      (⟨model, tokens, limit, p, host, port⟩ : Settings))
    <$> Field.defaulted "default_model" standardModel Field.text ms
    <*> Field.defaulted "max_tokens" 4096 Field.positiveInteger ms
    <*> Field.defaulted "chat_history_limit" 6 (Field.integerFrom 1) ms
    <*> Field.defaulted "host" "127.0.0.1" Field.text ms
    <*> Field.defaulted "port" 8000 Field.integer ms
    <*> Field.onlyNamed ["default_model", "max_tokens", "chat_history_limit", "host", "port"] ms

/-- The limits on voices, lines and randomness in an environment, as overrides of the standard
policy. -/
def policyOverrides (env : Environment) : List (Text × Json) :=
  [("maxVoices", .int (env.numberOr "AUDIAL_MAX_VOICES" 6)),
    ("maxLines", .int (env.numberOr "AUDIAL_MAX_LINES" 150)),
    ("maxRandomUsage", .int (env.numberOr "AUDIAL_MAX_RANDOM_USAGE" 4))]

/-- The settings in an environment. Limits that are faulty are reported before any other setting is
checked. -/
def ofEnvironment (env : Environment) : Except SettingsError Settings :=
  match Policy.standard.merge (policyOverrides env) with
  | .faulty faults => .error (.policy faults)
  | .sound p =>
    match ofMembers p
      [("default_model", .str (env.textOr "AUDIAL_MODEL" standardModel)),
        ("max_tokens", .int (env.numberOr "AUDIAL_MAX_TOKENS" 4096)),
        ("chat_history_limit", .int (env.numberOr "AUDIAL_CHAT_HISTORY_LIMIT" 6)),
        ("host", .str (env.textOr "AUDIAL_HOST" "127.0.0.1")),
        ("port", .int (env.numberOr "AUDIAL_PORT" 8000))] with
    | .sound s => .ok s
    | .faulty faults => .error (.fields faults)

end Settings

end Composer
