import Composer.Number.Binary64
import Composer.Text.Blank
import Composer.Text.Digit
import Composer.Text.Letter

/-!
Reading numbers that people write into options, environment variables and loosely typed fields. A
low line may stand between two digits and nowhere else. Options and variables admit the digits of
every script, fields those of ASCII alone. The white space around a number excludes the information
separators.
-/

namespace Composer.Reading

/-- More digits than this are not converted to a whole number. -/
def digitLimit : Nat := 4300

/-- The sentence that reports a whole number with too many digits. -/
def oversizedMessage (digits : Nat) : Text :=
  "Exceeds the limit (" ++ Text.ofNat digitLimit ++
    " digits) for integer string conversion: value has " ++ Text.ofNat digits ++
    " digits; use sys.set_int_max_str_digits() to increase the limit"

/-- Whether every low line in the text after `previous` stands between two digits. -/
def lowLinesSeparateDigits : (previous : Char) → Text → Bool
  | _, [] => true
  | previous, c :: t =>
    (c != '_' || (isAsciiDigit previous && t.head?.any isAsciiDigit)) && lowLinesSeparateDigits c t

/-- The text without its low lines, when each of them separates two digits. -/
def dropLowLines? (t : Text) : Option Text :=
  if lowLinesSeparateDigits ' ' t then some (t.filter (· != '_')) else none

/-- The sign in front of a text, true for minus, and the rest. -/
def sign : Text → Bool × Text
  | '-' :: t => (true, t)
  | '+' :: t => (false, t)
  | t => (false, t)

/-- The text with digits of all scripts turned into those of ASCII. -/
def toAsciiDigits (t : Text) : Text :=
  t.map fun c => (digitValue? c).elim c asciiDigit

def isOuterSpace (c : Char) : Bool := isBlank c && !(0x1C ≤ c.toNat && c.toNat ≤ 0x1F)

def trimmed (t : Text) : Text := Text.trimWhere isOuterSpace t

/-- The digits of a whole number written as a sign and ASCII digits. -/
def wholeDigits? (t : Text) : Option (Bool × Text) :=
  match dropLowLines? t with
  | none => none
  | some u =>
    let (negative, digits) := sign u
    if digits ≠ [] ∧ digits.all isAsciiDigit then some (negative, digits) else none

def signedValue (negative : Bool) (digits : Text) : Int :=
  if negative then -(digitsValue digits : Int) else digitsValue digits

/-- A whole number in an option or a variable: white space around it, a sign, digits of any script,
and no more of them than `digitLimit`. -/
def wholeNumber? (t : Text) : Option Int :=
  match wholeDigits? (toAsciiDigits (trimmed t)) with
  | some (negative, digits) =>
    if digits.length ≤ digitLimit then some (signedValue negative digits) else none
  | none => none

/-- The digits and the power of ten of an unsigned decimal: digits with an optional fraction, or a
fraction alone, with an optional exponent. -/
def decimal? (t : Text) : Option (Nat × Int) :=
  let whole := t.takeWhile isAsciiDigit
  let afterWhole := t.dropWhile isAsciiDigit
  let (fraction, rest) : Text × Text :=
    match afterWhole with
    | '.' :: u => (u.takeWhile isAsciiDigit, u.dropWhile isAsciiDigit)
    | _ => ([], afterWhole)
  if whole = [] ∧ fraction = [] then none
  else
    let digits := digitsValue (whole ++ fraction)
    let places : Int := fraction.length
    match rest with
    | [] => some (digits, -places)
    | e :: u =>
      let (negative, power) := sign u
      if (e == 'e' || e == 'E') && !power.isEmpty && power.all isAsciiDigit then
        some (digits, signedValue negative power - places)
      else none

/-- A number written in ASCII without low lines and white space: a sign, then a decimal or one of
the words for infinity and for what is not a number, in any case. -/
def plainNumber? (t : Text) : Option Binary64 :=
  let (negative, u) := sign t
  let word := u.map Char.toLower
  if word = ("inf" : Text) ∨ word = ("infinity" : Text) then some (.infinity negative)
  else if word = ("nan" : Text) then some .nan
  else (decimal? u).map fun (digits, e) => .ofDecimal negative digits e

/-- A number in an option: white space around it, digits of any script. -/
def number? (t : Text) : Option Binary64 :=
  (dropLowLines? (toAsciiDigits (trimmed t))).bind plainNumber?

/-- A number in a field: white space around it, or single low lines inside it, but not both. -/
def fieldNumber? (t : Text) : Option Binary64 :=
  match plainNumber? (trimmed t) with
  | some x => some x
  | none =>
    if t.contains ['_'] && !t.startsWith ['_'] && t.getLast? != some '_' && !t.contains "__" then
      plainNumber? (t.filter (· != '_'))
    else none

/-- What a field that wants a whole number makes of a text. -/
inductive FieldInteger where
  | value (n : Int)
  | malformed
  | tooLong
  deriving DecidableEq, Repr

/-- A whole number in a field: white space around it, a sign, digits, then perhaps a point and
zeros. -/
def fieldInteger (t : Text) : FieldInteger :=
  let u := trimmed t
  let whole := u.takeWhile (· != '.')
  let fractionIsZero :=
    match u.dropWhile (· != '.') with
    | [] => true
    | _ :: zeros => !zeros.isEmpty && zeros.all (· == '0')
  match wholeDigits? whole with
  | some (negative, digits) =>
    if !fractionIsZero then .malformed
    else if digits.length ≤ digitLimit then .value (signedValue negative digits)
    else .tooLong
  | none => .malformed

end Composer.Reading
