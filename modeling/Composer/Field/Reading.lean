import Composer.Field.Fault
import Composer.Number.Reading

/-!
Reading the fields of loosely typed values. A whole number may come as a number without fraction or
as a text, a truth value as 0 or 1 or as a word; a text is never anything but a string. Numbers and
truth values are read from texts alone, but a field for a text takes every string.
-/

namespace Composer.Field

open Checked

variable {α : Type}

def string : Json → Checked WideText
  | .str t => sound t
  | .brokenStr t => sound t.codePoints
  | found => refuse .stringType found

/-- A string as a text. -/
def text : Json → Checked Text
  | .str t => sound t
  | .brokenStr t => sound t.codePoints.legible
  | found => refuse .stringType found

def optional (read : Json → Checked α) : Json → Checked (Option α)
  | .null => sound none
  | found => (read found).map some

def isInt64 (n : Int) : Bool := -0x8000000000000000 ≤ n && n ≤ 0x7FFFFFFFFFFFFFFF

/-- An integer. A number without fraction counts, as long as its magnitude is below 2^63. -/
def integer (found : Json) : Checked Int :=
  match found with
  | .int n => sound n
  | .bool b => sound (if b then 1 else 0)
  | .float x =>
    if !x.isFinite then refuse .finiteNumber found
    else
      match x.toInt? with
      | none => refuse .intFromFloat found
      | some n =>
        if n.natAbs < 0x8000000000000000 then sound n else refuse .intParsingSize found
  | .str t =>
    match Reading.fieldInteger t with
    | .value n => sound n
    | .malformed => refuse .intParsing found
    | .tooLong => refuse .intParsingSize found
  | .brokenStr _ => refuse .stringUnicode found
  | _ => refuse .intType found

def integerFrom (least : Nat) (found : Json) : Checked Nat :=
  (integer found).andThen fun n =>
    if (least : Int) ≤ n then sound n.toNat else refuse .greaterThanEqual found

def positiveInteger (found : Json) : Checked Nat :=
  (integer found).andThen fun n => if 0 < n then sound n.toNat else refuse .greaterThan found

/-- A number. An integer counts when `admits` does, and then as the nearest number. -/
def number (admits : Int → Bool) (found : Json) : Checked Binary64 :=
  match found with
  | .float x => sound x
  | .int n => if admits n then sound (.ofInt n) else refuse .floatType found
  | .bool b => sound (.ofInt (if b then 1 else 0))
  | .str t => match Reading.fieldNumber? t with
    | some x => sound x
    | none => refuse .floatParsing found
  | .brokenStr _ => refuse .stringUnicode found
  | _ => refuse .floatType found

/-- A number that is not negative; an integer too large for the format is none. -/
def ceiling (found : Json) : Checked Binary64 :=
  (number (fun n => (Binary64.ofInt n).isFinite) found).andThen fun x =>
    if Binary64.zero.le x then sound x else refuse .greaterThanEqual found

def truthWords : List (Text × Bool) :=
  [("0", false), ("off", false), ("f", false), ("false", false), ("n", false), ("no", false),
    ("1", true), ("on", true), ("t", true), ("true", true), ("y", true), ("yes", true)]

def flag (found : Json) : Checked Bool :=
  match found with
  | .bool b => sound b
  | .int n =>
    if n = 0 then sound false
    else if n = 1 then sound true
    else refuse (if isInt64 n then .boolParsing else .boolType) found
  | .float x =>
    match x.toInt? with
    | some 0 => sound false
    | some 1 => sound true
    | _ => refuse .boolType found
  | .str t =>
    match truthWords.lookup (t.map Char.toLower) with
    | some b => sound b
    | none => refuse .boolParsing found
  | .brokenStr _ => refuse .stringUnicode found
  | _ => refuse .boolType found

def choice (options : List (Text × α)) (found : Json) : Checked α :=
  match found with
  | .str t =>
    match options.lookup t with
    | some a => sound a
    | none => refuse .literalError found
  | _ => refuse .literalError found

/-- Every item read in order, from the given position on. -/
def itemsFrom (read : Json → Checked α) : (position : Nat) → List Json → Checked (List α)
  | _, [] => sound []
  | position, item :: items =>
    List.cons <$> (read item).under (.index position) <*> itemsFrom read (position + 1) items

def list (read : Json → Checked α) : Json → Checked (List α)
  | .arr items => itemsFrom read 0 items
  | found => refuse .tupleType found

/-- The members of an object; anything else has the fault `kind`. -/
def members (kind : FaultKind) : Json → Checked (List (Text × Json))
  | .obj found => sound found
  | found => refuse kind found

def required (name : Text) (read : Json → Checked α) (found : List (Text × Json)) : Checked α :=
  match Json.member? name found with
  | some value => (read value).under (.key name)
  | none => faulty [⟨.missing, [.key name], .obj found⟩]

/-- A field that stands for `fallback` when it is not there. -/
def defaulted (name : Text) (fallback : α) (read : Json → Checked α)
    (found : List (Text × Json)) : Checked α :=
  match Json.member? name found with
  | some value => (read value).under (.key name)
  | none => sound fallback

/-- A field with a second name, used when the first is not there. -/
def defaultedEither (name other : Text) (fallback : α) (read : Json → Checked α)
    (found : List (Text × Json)) : Checked α :=
  match Json.member? name found with
  | some value => (read value).under (.key name)
  | none => defaulted other fallback read found

def onlyNamed (names : List Text) (found : List (Text × Json)) : Checked Unit :=
  let others := found.filter fun m => !names.contains m.1
  if others.isEmpty then sound ()
  else faulty (others.map fun m => ⟨.extraForbidden, [.key m.1], m.2⟩)

end Composer.Field
