import Composer.Number.Binary64
import Composer.Text.Wide

/-!
Values of a JSON text. Whole numbers written without point and exponent are kept apart from all
other numbers, and the members of an object keep the order in which their keys were first written.
-/

namespace Composer

inductive Json where
  | null
  | bool (value : Bool)
  | int (value : Int)
  | float (value : Binary64)
  | str (text : Text)
  /-- A string with an unpaired surrogate in it. -/
  | brokenStr (text : BrokenText)
  | arr (items : List Json)
  | obj (members : List (Text × Json))
  deriving Inhabited

namespace Json

/-- The value that a string makes, whether it is a text or not. -/
def ofString (s : WideText) : Json :=
  match h : s.narrow? with
  | some t => .str t
  | none => .brokenStr ⟨s, h⟩

@[simp] theorem ofString_widen (t : Text) : ofString t.widen = .str t := by
  unfold ofString
  split
  · next u h =>
      rw [WideText.narrow?_widen] at h
      rw [Option.some.inj h]
  · next h => exact absurd h (by simp)

@[simp] theorem ofString_codePoints (t : BrokenText) : ofString t.codePoints = .brokenStr t := by
  unfold ofString
  split
  · next u h => exact absurd (h.symm.trans t.broken) nofun
  · rfl

/-- The string that a value is, if it is one. -/
def string? : Json → Option WideText
  | str t => some t.widen
  | brokenStr t => some t.codePoints
  | _ => none

/-- The members with `key` set to `value`: a key that is already there keeps its place. -/
def setMember (key : Text) (value : Json) : List (Text × Json) → List (Text × Json)
  | [] => [(key, value)]
  | (k, v) :: members =>
    if k = key then (key, value) :: members else (k, v) :: setMember key value members

def member? (key : Text) (members : List (Text × Json)) : Option Json :=
  (members.find? fun m => m.1 = key).map Prod.snd

mutual

def hasBrokenStr : Json → Bool
  | brokenStr _ => true
  | arr items => anyBrokenStr items
  | obj members => anyBrokenMember members
  | _ => false

def anyBrokenStr : List Json → Bool
  | [] => false
  | item :: items => hasBrokenStr item || anyBrokenStr items

def anyBrokenMember : List (Text × Json) → Bool
  | [] => false
  | (_, value) :: members => hasBrokenStr value || anyBrokenMember members

end

mutual

/-- Whether some number in the value is infinite or not a number, so that JSON has no text for
it. -/
def hasNonFinite : Json → Bool
  | float x => !x.isFinite
  | arr items => anyNonFinite items
  | obj members => anyNonFiniteMember members
  | _ => false

def anyNonFinite : List Json → Bool
  | [] => false
  | item :: items => hasNonFinite item || anyNonFinite items

def anyNonFiniteMember : List (Text × Json) → Bool
  | [] => false
  | (_, value) :: members => hasNonFinite value || anyNonFiniteMember members

end

end Json

end Composer
