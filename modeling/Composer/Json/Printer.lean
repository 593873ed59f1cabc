import Composer.Json.Basic
import Composer.Number.Decimal
import Composer.Text.Digit

/-!
Writing JSON texts without white space. In a string the quotation mark, the backslash and the
characters below U+0020 are escaped, those with a one-letter escape by it; all other characters
stand for themselves.
-/

namespace Composer.Json

def escapeChar (c : Char) : Text :=
  if c = '"' then ['\\', '"']
  else if c = '\\' then ['\\', '\\']
  else if c = '\x08' then ['\\', 'b']
  else if c = '\t' then ['\\', 't']
  else if c = '\n' then ['\\', 'n']
  else if c = '\x0c' then ['\\', 'f']
  else if c = '\r' then ['\\', 'r']
  else if c.toNat < 0x20 then '\\' :: 'u' :: Text.hex 4 c.toNat
  else [c]

def writeString (t : Text) : Text := '"' :: t.flatMap escapeChar ++ ['"']

mutual

def write : Json → Text
  | null => "null"
  | bool true => "true"
  | bool false => "false"
  | int n => Text.ofInt n
  | float x => x.toText
  | str t => writeString t
  | brokenStr t => writeString t.codePoints.legible
  | arr list => '[' :: writeItems list ++ [']']
  | obj list => '\x7b' :: writeMembers list ++ ['\x7d']

def writeItems : List Json → Text
  | [] => []
  | [item] => write item
  | item :: rest => write item ++ ',' :: writeItems rest

def writeMembers : List (Text × Json) → Text
  | [] => []
  | [(key, item)] => writeString key ++ ':' :: write item
  | (key, item) :: rest => writeString key ++ ':' :: write item ++ ',' :: writeMembers rest

end

end Composer.Json
