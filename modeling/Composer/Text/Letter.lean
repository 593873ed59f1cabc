import Composer.Text.Basic

/-!
Letter case. Every comparison of this library that ignores case is made with letters of ASCII, so
two rules suffice: which characters count as a given ASCII letter, and what the lower case of a text
has in ASCII. Beyond ASCII four characters matter: the long s, the Kelvin sign and the two i of
Turkish.
-/

namespace Composer

/-- Whether `c` is the lower-case ASCII letter `letter` when case is ignored. -/
def isLetterFolded (letter c : Char) : Bool :=
  c.toLower == letter ||
    (letter == 's' && c == '\u017f') ||
    (letter == 'k' && c == '\u212a') ||
    (letter == 'i' && (c == '\u0130' || c == '\u0131'))

/-- The lower case of a character as far as ASCII is concerned: the Kelvin sign becomes `k`, the
dotted capital I becomes `i` and a combining dot, and a character whose lower case has no ASCII in
it stays. -/
def lowerChar (c : Char) : Text :=
  if c == '\u212a' then ['k']
  else if c == '\u0130' then ['i', '\u0307']
  else [c.toLower]

namespace Text

/-- The text in lower case, as far as ASCII is concerned. -/
def lower (t : Text) : Text := t.flatMap lowerChar

/-- What follows `lead`, given in lower-case ASCII, when the text begins with it in any case. -/
def afterFolded? : (lead : Text) → Text → Option Text
  | [], t => some t
  | _ :: _, [] => none
  | l :: lead, c :: t => if isLetterFolded l c then afterFolded? lead t else none

end Text

end Composer
