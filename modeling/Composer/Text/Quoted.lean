import Composer.Text.Digit

/-!
Names in quotation marks, as messages show them. The marks are single unless the name has a single
one and no double one. What cannot be seen in print is written by its code.
-/

namespace Composer.Text

/-- The characters that cannot be seen in print: controls, white space other than the space, marks
of direction and joining, and code points for private use or for nothing yet beyond the last plane
of letters. -/
def unseenRanges : List (Nat × Nat) := [
  (0x00, 0x1F), (0x7F, 0xA0), (0xAD, 0xAD), (0x600, 0x605), (0x61C, 0x61C), (0x6DD, 0x6DD),
  (0x70F, 0x70F), (0x890, 0x891), (0x8E2, 0x8E2), (0x1680, 0x1680), (0x180E, 0x180E),
  (0x2000, 0x200F), (0x2028, 0x202F), (0x205F, 0x206F), (0x3000, 0x3000), (0xE000, 0xF8FF),
  (0xFEFF, 0xFEFF), (0xFFF0, 0xFFFB), (0x110BD, 0x110BD), (0x110CD, 0x110CD), (0x13430, 0x13438),
  (0x1BCA0, 0x1BCA3), (0x1D173, 0x1D17A), (0x3134B, 0xE00FF), (0xE01F0, 0x10FFFF)
]

def isUnseen (c : Char) : Bool :=
  unseenRanges.any fun (first, last) => first ≤ c.toNat && c.toNat ≤ last

def quotedChar (mark c : Char) : Text :=
  if c = mark ∨ c = '\\' then ['\\', c]
  else if c = '\n' then ['\\', 'n']
  else if c = '\r' then ['\\', 'r']
  else if c = '\t' then ['\\', 't']
  else if isUnseen c then
    if c.toNat < 0x100 then '\\' :: 'x' :: hex 2 c.toNat
    else if c.toNat < 0x10000 then '\\' :: 'u' :: hex 4 c.toNat
    else '\\' :: 'U' :: hex 8 c.toNat
  else [c]

def quoted (name : Text) : Text :=
  let mark := if name.contains ['\''] && !name.contains ['"'] then '"' else '\''
  mark :: name.flatMap (quotedChar mark) ++ [mark]

end Composer.Text
