import Composer.Json.Basic
import Composer.Text.Digit

/-!
Faults of a value that does not have the fields it should have: what is wrong, where, and what
stands there. Faults are collected, so one answer names all of them.
-/

namespace Composer

inductive FaultKind where
  | missing
  | extraForbidden
  | stringType
  | stringUnicode
  | intType
  | intParsing
  | intParsingSize
  | intFromFloat
  | finiteNumber
  | floatType
  | floatParsing
  | boolType
  | boolParsing
  | tupleType
  | dictType
  | modelType
  | modelAttributesType
  | literalError
  | greaterThan
  | greaterThanEqual
  | valueError
  | unionTagNotFound
  | unionTagInvalid
  | jsonInvalid
  deriving DecidableEq, Repr

def FaultKind.name : FaultKind → Text
  | missing => "missing"
  | extraForbidden => "extra_forbidden"
  | stringType => "string_type"
  | stringUnicode => "string_unicode"
  | intType => "int_type"
  | intParsing => "int_parsing"
  | intParsingSize => "int_parsing_size"
  | intFromFloat => "int_from_float"
  | finiteNumber => "finite_number"
  | floatType => "float_type"
  | floatParsing => "float_parsing"
  | boolType => "bool_type"
  | boolParsing => "bool_parsing"
  | tupleType => "tuple_type"
  | dictType => "dict_type"
  | modelType => "model_type"
  | modelAttributesType => "model_attributes_type"
  | literalError => "literal_error"
  | greaterThan => "greater_than"
  | greaterThanEqual => "greater_than_equal"
  | valueError => "value_error"
  | unionTagNotFound => "union_tag_not_found"
  | unionTagInvalid => "union_tag_invalid"
  | jsonInvalid => "json_invalid"

inductive PathStep where
  | key (name : Text)
  | index (position : Nat)
  deriving DecidableEq, Repr

/-- A fault: its kind, the path to the part that has it, and what was found there. -/
structure Fault where
  kind : FaultKind
  path : List PathStep
  found : Json

def Fault.under (step : PathStep) (f : Fault) : Fault := { f with path := step :: f.path }

/-- The headline of a report of faults: how many there are, and of what. -/
def faultHeadline (faults : List Fault) (subject : Text) : Text :=
  Text.ofNat faults.length ++
    (if faults.length = 1 then " validation error" else " validation errors") ++ " for " ++ subject

/-- What checking a value gives: the value in its proper form, or all faults that were found. -/
inductive Checked (α : Type) where
  | sound (value : α)
  | faulty (faults : List Fault)

namespace Checked

variable {α β : Type}

def map (f : α → β) : Checked α → Checked β
  | sound a => sound (f a)
  | faulty faults => faulty faults

/-- Both checks are made; the faults of the first come before those of the second. -/
def both (f : Checked (α → β)) (a : Checked α) : Checked β :=
  match f, a with
  | sound f, sound a => sound (f a)
  | sound _, faulty faults => faulty faults
  | faulty faults, sound _ => faulty faults
  | faulty first, faulty second => faulty (first ++ second)

instance : Applicative Checked where
  pure := sound
  map := map
  seq f a := both f (a ())

/-- A further check that is made only when all before it passed. -/
def andThen (a : Checked α) (f : α → Checked β) : Checked β :=
  match a with
  | sound a => f a
  | faulty faults => faulty faults

def under (step : PathStep) : Checked α → Checked α
  | sound a => sound a
  | faulty faults => faulty (faults.map (·.under step))

def refuse (kind : FaultKind) (found : Json) : Checked α := faulty [⟨kind, [], found⟩]

def toExcept : Checked α → Except (List Fault) α
  | sound a => .ok a
  | faulty faults => .error faults

end Checked

end Composer
