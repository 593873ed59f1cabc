import Composer.Number.Reading
import Composer.Text.Alphanumeric

/-!
Recognising calls in pattern code by their spelling: a name, perhaps white space, an opening
parenthesis and perhaps an argument. Every recogniser looks at the start of a text and gives what
follows the call; `findAll` looks for calls one after the other, each search going on where the last
call ended.
-/

namespace Composer.Call

def opening? (t : Text) : Option Text := Text.after? ['('] t.skipBlanks

def named? (name t : Text) : Option Text := (Text.after? name t).bind opening?

def oneOf? (names : List Text) (t : Text) : Option Text := names.findSome? (named? · t)

def namedFolded? (name t : Text) : Option Text := (Text.afterFolded? name t).bind opening?

/-- The call of a method: a point right before the name. -/
def method? (name t : Text) : Option Text := named? ('.' :: name) t

def methodOf? (names : List Text) (t : Text) : Option Text :=
  (Text.after? ['.'] t).bind (oneOf? names)

/-- The call of one of several methods, with white space allowed after the point. -/
def spacedMethodOf? (names : List Text) (t : Text) : Option Text :=
  (Text.after? ['.'] t).bind fun u => oneOf? names u.skipBlanks

/-- White space, a point, white space, a name in ASCII letters that goes on in word characters, and
an opening parenthesis: a method called on what stands before. -/
def chainedMethod? (t : Text) : Option Text :=
  match Text.after? ['.'] t.skipBlanks with
  | none => none
  | some u =>
    match u.skipBlanks with
    | [] => none
    | c :: v => if c.isAlpha || c == '_' then opening? (v.dropWhile isWordChar) else none

/-- An unsigned decimal: digits with an optional fraction, or a fraction alone. An exponent is no
part of it. -/
def decimal? (t : Text) : Option (Binary64 × Text) :=
  let whole := t.takeWhile isDecimalDigit
  match t.dropWhile isDecimalDigit with
  | '.' :: u =>
    let fraction := u.takeWhile isDecimalDigit
    if whole = [] ∧ fraction = [] then none
    else
      some (.ofDecimal false (digitsValue (whole ++ fraction)) (-(fraction.length : Int)),
        u.dropWhile isDecimalDigit)
  | rest => if whole = [] then none else some (.ofDecimal false (digitsValue whole) 0, rest)

/-- The call of a method whose argument starts with a decimal: that number and what follows it. -/
def methodWithDecimal? (name t : Text) : Option (Binary64 × Text) :=
  (method? name t).bind fun u => decimal? u.skipBlanks

/-- The call of a method whose argument starts with digits: those digits and what follows them. -/
def methodWithDigits? (name t : Text) : Option (Text × Text) :=
  (method? name t).bind fun u =>
    let v := u.skipBlanks
    match v.takeWhile isDecimalDigit with
    | [] => none
    | digits => some (digits, v.dropWhile isDecimalDigit)

/-- The call of `note` on a string in quotation marks: the text of the string and what follows
it. -/
def noteWithString? (t : Text) : Option (Text × Text) :=
  ((named? "note" t).bind fun u => Text.after? ['"'] u.skipBlanks).bind (Text.cut? ['"'])

/-- Everything that `recognise` finds, from left to right; a search goes on after what was found.
`fuel` bounds the characters left. -/
def findAllWith {α : Type} (recognise : Text → Option (α × Text)) : (fuel : Nat) → Text → List α
  | 0, _ => []
  | _ + 1, [] => []
  | fuel + 1, c :: t =>
    match recognise (c :: t) with
    | some (found, rest) => found :: findAllWith recognise fuel rest
    | none => findAllWith recognise fuel t

/-- Everything that `recognise` finds in a text, from left to right and without overlaps. What is
found takes up at least one character. -/
def findAll {α : Type} (recognise : Text → Option (α × Text)) (t : Text) : List α :=
  findAllWith recognise t.length t

/-- How many suffixes of a text satisfy `p` that start at the border of a word, given the character
before the text. -/
def countAtWordBorder (p : Text → Bool) : (before : Option Char) → Text → Nat
  | _, [] => 0
  | before, c :: t =>
    (if before.any isWordChar != isWordChar c && p (c :: t) then 1 else 0) +
      countAtWordBorder p (some c) t

end Composer.Call
