/-!
Double-precision numbers, exactly. A number is a sign and a rank: the position of its magnitude in
the ascending sequence of all magnitudes of the format, zero at rank 0 and infinity right after the
largest finite one. Comparing magnitudes is comparing ranks; the magnitude of a finite rank is a
whole number of units times a power of two (`units`, `scale`).

Rounding a fraction to the format (`ofFraction`) is to nearest, ties to the even neighbour.
-/

namespace Composer

/-- A double-precision number: not a number, or a sign and the rank of a magnitude. -/
inductive Binary64 where
  | nan
  | signed (negative : Bool) (rank : Nat)
  deriving DecidableEq, Repr, Inhabited

namespace Binary64

/-- How many ranks have the same power of two: `2 ^ 52`. -/
def binade : Nat := 0x10000000000000

def infiniteRank : Nat := 2047 * binade

def infinity (negative : Bool) : Binary64 := .signed negative infiniteRank

def zero : Binary64 := .signed false 0

/-- Whether the number is neither infinite nor not a number. -/
def isFinite : Binary64 → Bool
  | nan => false
  | signed _ rank => rank < infiniteRank

/-- The whole number of units that the magnitude of a finite rank is. -/
def units (rank : Nat) : Nat :=
  if rank < binade then rank else rank % binade + binade

def scale (rank : Nat) : Int :=
  if rank < binade then -1074 else (rank / binade : Nat) - 1075

/-- The quotient `n / d` rounded to the nearest whole number, a tie to the even one. -/
def roundQuotient (n d : Nat) : Nat :=
  let q := n / d
  let r := n % d
  if 2 * r < d then q
  else if d < 2 * r then q + 1
  else if q % 2 = 0 then q else q + 1

/-- `n / d` in units of `2 ^ e`, rounded to the nearest whole number. -/
def roundScaled (n d : Nat) (e : Int) : Nat :=
  if 0 ≤ e then roundQuotient n (d * Nat.pow 2 e.toNat)
  else roundQuotient (n * Nat.pow 2 (-e).toNat) d

def reaches (n d : Nat) (e : Int) : Bool :=
  if 0 ≤ e then d * Nat.pow 2 e.toNat ≤ n else d ≤ n * Nat.pow 2 (-e).toNat

/-- The rank of the magnitude nearest to `n / d`, for `d` not zero. The power of two of one unit is
52 below the greatest power of two in the fraction, and never below the least of the format;
rounding up to the next power of two lands on the next rank all the same. -/
def rankOfFraction (n d : Nat) : Nat :=
  if n = 0 then 0
  else
    let guess : Int := (Nat.log2 n : Int) - Nat.log2 d
    let top := if reaches n d guess then guess else guess - 1
    let unit := max (top - 52) (-1074)
    min ((unit + 1074).toNat * binade + roundScaled n d unit) infiniteRank

/-- The number nearest to `n / d`, with the given sign. -/
def ofFraction (negative : Bool) (n d : Nat) : Binary64 := .signed negative (rankOfFraction n d)

/-- A power of ten that is at most a number other than zero, since `10 ^ 59 < 2 ^ 196`. -/
def tensBelow (n : Nat) : Nat := Nat.log2 n * 59 / 196

/-- A power of ten that is greater than a number, since `2 ^ 93 < 10 ^ 28`. -/
def tensAbove (n : Nat) : Nat := (Nat.log2 n + 1) * 28 / 93 + 1

/-- The number nearest to `digits · 10 ^ exponent`. Decimals far outside the range of the format are
not expanded: what is at least 10^400 is infinite, and what is below 10^-400 is zero. -/
def ofDecimal (negative : Bool) (digits : Nat) (exponent : Int) : Binary64 :=
  if digits = 0 then .signed negative 0
  else if 400 < tensBelow digits + exponent then infinity negative
  else if tensAbove digits + exponent < -400 then .signed negative 0
  else if 0 ≤ exponent then ofFraction negative (digits * Nat.pow 10 exponent.toNat) 1
  else ofFraction negative digits (Nat.pow 10 (-exponent).toNat)

def ofInt (n : Int) : Binary64 := ofFraction (n < 0) n.natAbs 1

/-- The place of a number in the order: negative numbers below zero, both zeros at 0. -/
def place (negative : Bool) (rank : Nat) : Int := if negative then -(rank : Int) else rank

/-- Strict order; nothing is less or greater than what is not a number. -/
def lt : Binary64 → Binary64 → Bool
  | signed s r, signed t q => place s r < place t q
  | _, _ => false

/-- Order; what is not a number is not even at most itself. -/
def le : Binary64 → Binary64 → Bool
  | signed s r, signed t q => place s r ≤ place t q
  | _, _ => false

/-- Equality of value: both zeros are equal, and what is not a number equals nothing. -/
def sameValue : Binary64 → Binary64 → Bool
  | signed s r, signed t q => place s r == place t q
  | _, _ => false

def isZero : Binary64 → Bool
  | signed _ r => r == 0
  | nan => false

/-- The numerator and denominator of the exact magnitude of a finite rank. -/
def fraction (rank : Nat) : Nat × Nat :=
  let e := scale rank
  if 0 ≤ e then (units rank * Nat.pow 2 e.toNat, 1) else (units rank, Nat.pow 2 (-e).toNat)

/-- The integer that a finite number without fraction is. -/
def toInt? : Binary64 → Option Int
  | nan => none
  | signed negative rank =>
    if rank < infiniteRank then
      let (n, d) := fraction rank
      if n % d = 0 then some (if negative then -(n / d : Nat) else (n / d : Nat)) else none
    else none

end Binary64

end Composer
