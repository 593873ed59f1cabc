import Composer.Text.Digit
import Composer.Time.Date

/-!
Stamps: a day, a time of day to the microsecond, and perhaps the offset from universal time that
both are given in. A stamp without offset is taken to be in universal time wherever an instant is
needed.
-/

namespace Composer

/-- A stamp. The offset is counted in microseconds, east of Greenwich being positive. -/
structure Stamp where
  date : Date
  hour : Nat
  minute : Nat
  second : Nat
  microsecond : Nat
  offset : Option Int
  deriving DecidableEq, Repr, Inhabited

namespace Stamp

def perSecond : Nat := 1000000

def perDay : Nat := 86400 * perSecond

/-- The number of the day from which instants are counted. -/
def epoch : Nat := Date.number ⟨1970, 1, 1⟩

def isValid (s : Stamp) : Bool :=
  s.date.isValid && s.hour < 24 && s.minute < 60 && s.second < 60 && s.microsecond < perSecond

def clockMicroseconds (hour minute second microsecond : Nat) : Nat :=
  ((hour * 60 + minute) * 60 + second) * perSecond + microsecond

def instant (s : Stamp) : Int :=
  ((s.date.number : Int) - epoch) * perDay +
    clockMicroseconds s.hour s.minute s.second s.microsecond - s.offset.getD 0

/-- The number of the day that an instant is on. -/
def dayOf (t : Int) : Int := t / perDay + epoch

/-- The year that is missing where the local time at an instant is looked up. The day of the instant
has to be one that dates are written in, and so has the day before. -/
def missingYear? (t : Int) : Option Int :=
  if dayOf t < 1 ∨ Date.lastNumber < dayOf t then some (Date.yearOf (dayOf t))
  else if dayOf t = 1 then some (Date.yearOf 0)
  else none

def ofInstant (t : Int) : Stamp :=
  let inDay := (t % perDay).toNat
  let seconds := inDay / perSecond
  { date := Date.ofNumber (dayOf t).toNat
    hour := seconds / 3600
    minute := seconds / 60 % 60
    second := seconds % 60
    microsecond := inDay % perSecond
    offset := some 0 }

def pair (a b : Nat) : Text := Text.ofNatPadded 2 a ++ ':' :: Text.ofNatPadded 2 b

/-- Microseconds as a fraction of a second; nothing when there are none. -/
def fractionText (microsecond : Nat) : Text :=
  if microsecond = 0 then [] else '.' :: Text.ofNatPadded 6 microsecond

/-- An offset: sign, hours and minutes, then seconds and their fraction as far as they are
needed. -/
def offsetText (offset : Int) : Text :=
  let size := offset.natAbs
  let seconds := size / perSecond
  let fraction := fractionText (size % perSecond)
  (if offset < 0 then '-' else '+') :: pair (seconds / 3600) (seconds / 60 % 60) ++
    (if seconds % 60 = 0 ∧ fraction = [] then []
    else ':' :: Text.ofNatPadded 2 (seconds % 60) ++ fraction)

def dayText (s : Stamp) : Text :=
  Text.ofNatPadded 4 s.date.year ++ '-' :: Text.ofNatPadded 2 s.date.month ++
    '-' :: Text.ofNatPadded 2 s.date.day

def clockText (s : Stamp) : Text := pair s.hour s.minute ++ ':' :: Text.ofNatPadded 2 s.second

def toText (s : Stamp) : Text :=
  s.dayText ++ 'T' :: s.clockText ++ fractionText s.microsecond ++ s.offset.elim [] offsetText

/-- Day and time of a stamp as a part of a name: digits only, and a hyphen between the two. -/
def toName (s : Stamp) : Text :=
  Text.ofNat s.date.year ++ Text.ofNatPadded 2 s.date.month ++ Text.ofNatPadded 2 s.date.day ++
    '-' :: Text.ofNatPadded 2 s.hour ++ Text.ofNatPadded 2 s.minute ++ Text.ofNatPadded 2 s.second

end Stamp

end Composer
