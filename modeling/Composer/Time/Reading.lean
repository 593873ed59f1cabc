import Composer.Time.Stamp

/-!
Reading stamps. The day is given by month and day or by week and day of the week, with hyphens
between the parts or without. One character of any kind stands between day and time. The time has up
to three numbers of two digits, with colons between them or without, then perhaps a fraction of a
second; an offset has a sign and the same form. `Z` stands for no offset.

A reader is forgiving in three places, which the rules below name: a fraction may follow any of the
three numbers, what comes after a complete fraction or is a single character after the numbers is
passed over when an offset follows, and a null character ends a stamp.
-/

namespace Composer.Stamp

/-- The number that the first `count` characters make up, when all of them are digits of ASCII, and
what follows them. -/
def digits? (count : Nat) (t : Text) : Option (Nat × Text) :=
  let taken := t.take count
  if taken.length = count ∧ taken.all isAsciiDigit then some (digitsValue taken, t.drop count)
  else none

/-- What follows the week of a day given by its week: the day of the week, 1 when none is given, and
the rest. With hyphens, two digits after the next hyphen but one character are a time already;
without, the digits that follow tell whether their number allows for a day. -/
def weekdayAfter? (separated : Bool) (t : Text) : Option (Nat × Text) :=
  if separated then
    match t with
    | ['-'] => none
    | '-' :: u =>
      if (u.drop 1).head?.any isAsciiDigit then some (1, t) else digits? 1 u
    | _ => some (1, t)
  else
    let count := (t.takeWhile isAsciiDigit).length
    if count = 1 ∨ (2 ≤ count ∧ count % 2 = 0) then digits? 1 t else some (1, t)

def date? (t : Text) : Option (Date × Text) := do
  let (year, afterYear) ← digits? 4 t
  let separated := afterYear.head? = some '-'
  let u := if separated then afterYear.drop 1 else afterYear
  match u with
  | 'W' :: v =>
    let (week, afterWeek) ← digits? 2 v
    let (day, rest) ← weekdayAfter? separated afterWeek
    let date ← Date.ofWeek? year week day
    return (date, rest)
  | _ =>
    let (month, afterMonth) ← digits? 2 u
    let v ← if separated then Text.after? ['-'] afterMonth else some afterMonth
    let (day, rest) ← digits? 2 v
    return (⟨year, month, day⟩, rest)

/-- A time: up to three numbers, microseconds, and whether something was left over at the end. -/
structure Clock where
  numbers : List Nat
  microsecond : Nat
  leftOver : Bool

/-- Whether anything is left over; a null character counts as the end. -/
def isLeftOver (t : Text) : Bool := t.head?.any (· != '\x00')

def fraction? (t : Text) : Option (Nat × Bool) :=
  let taken := t.take 6
  if taken.all isAsciiDigit then
    some (digitsValue taken * Nat.pow 10 (6 - taken.length),
      isLeftOver ((t.drop 6).dropWhile isAsciiDigit))
  else none

def isSingle : Text → Bool
  | [c] => c.toNat < 0x80
  | _ => false

/-- The numbers of a time from the next one on, `count` of them at most. Whether there are colons is
told by the character after the first number. -/
def clockFrom? : (count : Nat) → (separated : Option Bool) → Text → Option Clock
  | 0, _, t => (fraction? t).map fun (microsecond, leftOver) => ⟨[], microsecond, leftOver⟩
  | count + 1, separated, t =>
    match digits? 2 t with
    | none => none
    | some (n, []) => some ⟨[n], 0, false⟩
    | some (n, c :: u) =>
      let separated := separated.getD (c == ':')
      if isSingle (c :: u) then some ⟨[n], 0, isLeftOver (c :: u)⟩
      else if separated && c == ':' then
        (clockFrom? count (some separated) u).map fun k => { k with numbers := n :: k.numbers }
      else if c == '.' || c == ',' then
        (fraction? u).map fun (microsecond, leftOver) => ⟨[n], microsecond, leftOver⟩
      else if separated then none
      else
        (clockFrom? count (some separated) (c :: u)).map fun k =>
          { k with numbers := n :: k.numbers }

def clock? (t : Text) : Option Clock := clockFrom? 3 none t

def Clock.microseconds (k : Clock) : Nat :=
  clockMicroseconds (k.numbers.getD 0 0) (k.numbers.getD 1 0) (k.numbers.getD 2 0) k.microsecond

def startsOffset (c : Char) : Bool := c == '+' || c == '-' || c == 'Z'

/-- An offset, given with its sign. One that is less than a second is none at all, and one of a
whole day is too large. -/
def offset? (t : Text) : Option Int :=
  match t with
  | 'Z' :: u => if isLeftOver u then none else some 0
  | sign :: u =>
    match clock? u with
    | none => none
    | some k =>
      let size : Int := k.microseconds
      if k.leftOver || perDay ≤ k.microseconds then none
      else if k.microseconds < perSecond then some 0
      else some (if sign == '-' then -size else size)
  | [] => none

def ofClock? (date : Date) (t : Text) : Option Stamp :=
  let zone := t.dropWhile (!startsOffset ·)
  match clock? (t.takeWhile (!startsOffset ·)) with
  | none => none
  | some k =>
    let stamp (offset : Option Int) : Stamp :=
      ⟨date, k.numbers.getD 0 0, k.numbers.getD 1 0, k.numbers.getD 2 0, k.microsecond, offset⟩
    if zone.isEmpty then if k.leftOver then none else some (stamp none)
    else (offset? zone).map fun offset => stamp (some offset)

/-- The stamp that a text is, if it is one that exists. -/
def ofText? (t : Text) : Option Stamp :=
  let found : Option Stamp :=
    match date? t with
    | none => none
    | some (date, []) => some ⟨date, 0, 0, 0, 0, none⟩
    | some (date, _ :: u) => ofClock? date u
  found.filter isValid

end Composer.Stamp
