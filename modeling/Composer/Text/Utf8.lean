import Composer.Text.Digit

/-!
Texts as bytes. Decoding refuses what is not well formed: surrogates, overlong forms, values above
U+10FFFF, and characters that are cut short. A refusal names the bytes at fault, the longest
beginning of a well-formed character, or the single byte that begins none.
-/

namespace Composer.Utf8

inductive Reason where
  | invalidStart
  | invalidContinuation
  | unexpectedEnd
  deriving DecidableEq, Repr

/-- A run of bytes that is no text: where it starts, its bytes, and why. -/
structure Fault where
  position : Nat
  bytes : List Nat
  reason : Reason
  deriving DecidableEq, Repr

def Reason.words : Reason → Text
  | invalidStart => "invalid start byte"
  | invalidContinuation => "invalid continuation byte"
  | unexpectedEnd => "unexpected end of data"

def Fault.message (f : Fault) : Text :=
  match f.bytes with
  | [byte] =>
    "'utf-8' codec can't decode byte 0x" ++ Text.hex 2 byte ++
      " in position " ++ Text.ofNat f.position ++ ": " ++ f.reason.words
  | bytes =>
    "'utf-8' codec can't decode bytes in position " ++ Text.ofNat f.position ++ "-" ++
      Text.ofNat (f.position + bytes.length - 1) ++ ": " ++ f.reason.words

/-- How many bytes follow a first byte, and the range of the second one. -/
def shape? (first : Nat) : Option (Nat × Nat × Nat) :=
  if 0xC2 ≤ first ∧ first ≤ 0xDF then some (1, 0x80, 0xBF)
  else if first = 0xE0 then some (2, 0xA0, 0xBF)
  else if first = 0xED then some (2, 0x80, 0x9F)
  else if 0xE1 ≤ first ∧ first ≤ 0xEF then some (2, 0x80, 0xBF)
  else if first = 0xF0 then some (3, 0x90, 0xBF)
  else if first = 0xF4 then some (3, 0x80, 0x8F)
  else if 0xF1 ≤ first ∧ first ≤ 0xF3 then some (3, 0x80, 0xBF)
  else none

/-- The bytes among the next `count` that continue a character, the first of them within its own
range. -/
def continuation : (count low high : Nat) → List Nat → List Nat
  | count + 1, low, high, byte :: bytes =>
    if low ≤ byte ∧ byte ≤ high then byte :: continuation count 0x80 0xBF bytes else []
  | _, _, _, _ => []

def codePoint (first : Nat) (rest : List Nat) : Nat :=
  rest.foldl (fun n byte => n * 64 + byte % 64) (first % Nat.pow 2 (6 - rest.length))

/-- The text of bytes that start at a position. `fuel` bounds the bytes left. -/
def decodeFrom : (fuel position : Nat) → List Nat → Except Fault Text
  | 0, _, _ => .ok []
  | _, _, [] => .ok []
  | fuel + 1, position, first :: bytes =>
    if first < 0x80 then
      (decodeFrom fuel (position + 1) bytes).map (Char.ofNat first :: ·)
    else
      match shape? first with
      | none => .error ⟨position, [first], .invalidStart⟩
      | some (count, low, high) =>
        let found := continuation count low high bytes
        if found.length = count then
          (decodeFrom fuel (position + count + 1) (bytes.drop count)).map
            (Char.ofNat (codePoint first found) :: ·)
        else if bytes.length = found.length then
          .error ⟨position, first :: found, .unexpectedEnd⟩
        else .error ⟨position, first :: found, .invalidContinuation⟩

def decode (bytes : List Nat) : Except Fault Text := decodeFrom bytes.length 0 bytes

end Composer.Utf8
