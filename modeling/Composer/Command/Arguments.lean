import Composer.Number.Reading

/-!
Arguments of a command line. A word that starts with a hyphen is an option; it may be shortened as
long as no other option is meant by it, and its value stands after an equals sign or in the next
word. Two hyphens alone end the options. A word that looks like a negative number, or has a space in
it, is no option.
-/

namespace Composer.Arguments

inductive ValueKind where
  | text
  | whole
  | number
  deriving DecidableEq, Repr

def ValueKind.accepts : ValueKind → Text → Bool
  | text, _ => true
  | whole, t => (Reading.wholeNumber? t).isSome
  | number, t => (Reading.number? t).isSome

/-- An option: its name with two hyphens, and what value it has, if any. -/
structure OptionForm where
  name : Text
  value : Option ValueKind
  deriving DecidableEq, Repr

inductive Refusal where
  /-- Help was asked for. -/
  | help
  /-- The arguments are wrong. -/
  | misused
  deriving DecidableEq, Repr

inductive Word where
  | operand (t : Text)
  | option (form : OptionForm) (given : Option Text)
  /-- The long option for help, with what follows the equals sign. -/
  | help (given : Option Text)
  /-- The short option for help, with what follows it. -/
  | shortHelp (given : Option Text)
  | unknown
  | separator
  deriving DecidableEq, Repr

def helpName : Text := "--help"

def shortHelpName : Text := "-h"

def isNegativeNumber (t : Text) : Bool :=
  match t with
  | '-' :: u =>
    let u := if u.getLast? = some Text.lineFeed then u.dropLast else u
    let whole := u.takeWhile isDecimalDigit
    match u.dropWhile isDecimalDigit with
    | [] => !whole.isEmpty
    | '.' :: fraction => !fraction.isEmpty && fraction.all isDecimalDigit
    | _ => false
  | _ => false

def fullName? (forms : List OptionForm) (name : Text) (given : Option Text) : Option Word :=
  if name = shortHelpName then some (.shortHelp given)
  else if name = helpName then some (.help given)
  else (forms.find? fun f => f.name = name).map fun f => .option f given

def meant (forms : List OptionForm) (name : Text) (given : Option Text) : List Word :=
  (if helpName.startsWith name then [.help given] else []) ++
    (forms.filter fun f => f.name.startsWith name).map fun f => .option f given

/-- A word that starts with a hyphen and is no full name. -/
def shortened (forms : List OptionForm) (t : Text) : Except Refusal Word :=
  let found : List Word :=
    if t.startsWith "--" then
      match Text.cut? ['='] t with
      | some (name, given) => meant forms name (some given)
      | none => meant forms t none
    else
      match Text.after? shortHelpName t with
      | some given => [.shortHelp (some given)]
      | none => []
  match found with
  | [word] => .ok word
  | _ :: _ => .error .misused
  | [] => .ok (if isNegativeNumber t || t.contains [' '] then .operand t else .unknown)

def word (forms : List OptionForm) (t : Text) : Except Refusal Word :=
  match t with
  | '-' :: _ :: _ =>
    match fullName? forms t none with
    | some w => .ok w
    | none =>
      match (Text.cut? ['='] t).bind fun (name, given) => fullName? forms name (some given) with
      | some w => .ok w
      | none => shortened forms t
  | _ => .ok (.operand t)

def words (forms : List OptionForm) : List Text → Except Refusal (List Word)
  | [] => .ok []
  | t :: rest =>
    if t = ("--" : Text) then .ok (.separator :: rest.map .operand)
    else do
      let w ← word forms t
      return w :: (← words forms rest)

/-- Arguments that were read: the operand, and the options with their values, the last one first. A
form that expects no operand has none. -/
structure Given where
  operand : Option Text
  options : List (Text × Text)
  deriving DecidableEq, Repr, Inhabited

/-- Whether the short option for help is all that is asked for: only its own letter may follow
it. -/
def asksOnlyHelp : Option Text → Bool
  | none => true
  | some given => !given.isEmpty && given.all (· == 'h')

/-- The value of an option after the words that were read, if it has one of its kind. -/
def value? (kind : ValueKind) (t : Text) : Except Refusal Text :=
  if kind.accepts t then .ok t else .error .misused

/-- The arguments that words make up. Words that belong nowhere are an error, but only when all
words have been read, so that a later word may still ask for help. -/
def gather (wantsOperand : Bool) : (stray : Bool) → Given → List Word → Except Refusal Given
  | stray, g, [] =>
    if stray || (wantsOperand && g.operand.isNone) then .error .misused else .ok g
  | stray, g, .operand t :: .separator :: rest =>
    if wantsOperand && g.operand.isNone then
      gather wantsOperand stray { g with operand := some t } rest
    else gather wantsOperand true g rest
  | stray, g, .operand t :: rest =>
    if wantsOperand && g.operand.isNone then
      gather wantsOperand stray { g with operand := some t } rest
    else gather wantsOperand true g rest
  | stray, g, .separator :: .operand t :: rest =>
    if wantsOperand && g.operand.isNone then
      gather wantsOperand stray { g with operand := some t } rest
    else gather wantsOperand true g rest
  | _, g, .separator :: rest => gather wantsOperand true g rest
  | _, g, .unknown :: rest => gather wantsOperand true g rest
  | _, _, .help given :: _ => .error (if given.isNone then .help else .misused)
  | _, _, .shortHelp given :: _ => .error (if asksOnlyHelp given then .help else .misused)
  | stray, g, .option ⟨name, none⟩ none :: rest =>
    gather wantsOperand stray { g with options := (name, []) :: g.options } rest
  | _, _, .option ⟨_, none⟩ (some _) :: _ => .error .misused
  | stray, g, .option ⟨name, some kind⟩ (some t) :: rest => do
    let v ← value? kind t
    gather wantsOperand stray { g with options := (name, v) :: g.options } rest
  | stray, g, .option ⟨name, some kind⟩ none :: .operand t :: rest => do
    let v ← value? kind t
    gather wantsOperand stray { g with options := (name, v) :: g.options } rest
  | _, _, .option ⟨_, some _⟩ none :: _ => .error .misused

def read (forms : List OptionForm) (wantsOperand : Bool) (ts : List Text) :
    Except Refusal Given := do
  gather wantsOperand false ⟨none, []⟩ (← words forms ts)

/-- The name of the command and the arguments after it. Options before the name can only ask for
help; any other is an error once the arguments of the command have been read. -/
def command (stray : Bool) : List Text → Except Refusal (Bool × Text × List Text)
  | [] => .error .misused
  | t :: rest =>
    if t = ("--" : Text) then .error .misused
    else
      match word [] t with
      | .ok (.operand name) => .ok (stray, name, rest)
      | .ok (.help given) => .error (if given.isNone then .help else .misused)
      | .ok (.shortHelp given) => .error (if asksOnlyHelp given then .help else .misused)
      | _ => command true rest

def Given.option? (g : Given) (name : Text) : Option Text := g.options.lookup name

def Given.has (g : Given) (name : Text) : Bool := (g.option? name).isSome

end Composer.Arguments
