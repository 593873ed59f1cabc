import Composer.Number.Binary64
import Composer.Text.Digit

/-!
The decimal text of a double-precision number. Two choices of digits: the fewest that read back as
the same number (`shortest`), and a given number of significant digits (`significant`). Both give a
whole number and the power of ten of its first digit; a `Layout` says how that is written.
-/

namespace Composer

/-- How a decimal is written: which powers of ten are written without an exponent, and whether a
whole number shows a fraction. -/
structure DecimalLayout where
  /-- The least power of ten of the first digit that is written positionally. -/
  least : Int
  /-- The least power of ten of the first digit, above `least`, that has an exponent again. -/
  tooLarge : Int
  /-- Whether a whole number is followed by a point and a zero. -/
  keepsPoint : Bool

namespace Binary64

/-- The greatest power of ten that is at most `n / d`, for a fraction that is not zero. `fuel`
bounds the search below one. -/
def decimalTop (fuel n d : Nat) : Int :=
  if d ≤ n then ((Text.ofNat (n / d)).length : Int) - 1
  else below fuel 1 (10 * n)
where
  /-- The least power of ten that lifts the fraction to one, negated. -/
  below : Nat → Nat → Nat → Int
    | 0, steps, _ => -(steps : Int)
    | fuel + 1, steps, m => if d ≤ m then -(steps : Int) else below fuel (steps + 1) (10 * m)

def inUnitsOf (n d : Nat) (e : Int) : Nat × Nat :=
  if 0 ≤ e then (n, d * Nat.pow 10 e.toNat) else (n * Nat.pow 10 (-e).toNat, d)

/-- The digits with the least count, from `count` on, whose decimal rounds to `rank`. Of the two
decimals of that length around the exact value the nearer one that reads back is taken, of equally
near ones the even one. -/
def shortestFrom (rank : Nat) : (fuel count : Nat) → Nat × Int
  | 0, _ => (0, 0)
  | fuel + 1, count =>
    let (n, d) := fraction rank
    let e := decimalTop 400 n d - (count : Int) + 1
    let (a, b) := inUnitsOf n d e
    let low := a / b
    let readsBack (digits : Nat) := ofDecimal false digits e == .signed false rank
    let preferLow := 2 * (a % b) < b || (2 * (a % b) == b && low % 2 == 0)
    match readsBack low, readsBack (low + 1) with
    | true, true => (if preferLow then low else low + 1, e)
    | true, false => (low, e)
    | false, true => (low + 1, e)
    | false, false => shortestFrom rank fuel (count + 1)

/-- The shortest digits of a finite magnitude that is not zero, and the power of ten of the last. -/
def shortest (rank : Nat) : Nat × Int := shortestFrom rank 20 1

/-- A finite magnitude that is not zero rounded to `count` digits, and the power of ten of the
last. -/
def significant (count rank : Nat) : Nat × Int :=
  let (n, d) := fraction rank
  let e := decimalTop 400 n d - (count : Int) + 1
  let (a, b) := inUnitsOf n d e
  (roundQuotient a b, e)

/-- The number without the zeros at its end, and how many there were; `fuel` bounds their count. -/
def stripZeros : (fuel n : Nat) → Nat × Nat
  | 0, n => (n, 0)
  | fuel + 1, n =>
    if n % 10 = 0 ∧ n ≠ 0 then
      let (m, count) := stripZeros fuel (n / 10)
      (m, count + 1)
    else (n, 0)

/-- The sign and at least two digits of a decimal exponent. -/
def exponentText (e : Int) : Text :=
  (if e < 0 then ['-'] else ['+']) ++ Text.ofNatPadded 2 e.natAbs

/-- The decimal `digits · 10 ^ e` as the layout has it. -/
def layOut (layout : DecimalLayout) (digits : Nat) (e : Int) : Text :=
  let (m, zeros) := stripZeros 400 digits
  let text := Text.ofNat m
  let last := e + zeros
  let top := last + text.length - 1
  if layout.least ≤ top ∧ top < layout.tooLarge then
    if 0 ≤ last then
      text ++ List.replicate last.toNat '0' ++ (if layout.keepsPoint then ['.', '0'] else [])
    else if 0 ≤ top then
      text.take (top.toNat + 1) ++ '.' :: text.drop (top.toNat + 1)
    else
      '0' :: '.' :: List.replicate (-top - 1).toNat '0' ++ text
  else
    match text with
    | [] => []
    | [c] => c :: 'e' :: exponentText top
    | c :: rest => c :: '.' :: rest ++ 'e' :: exponentText top

/-- A number written with the digits that `choose` gives for its rank. -/
def written (layout : DecimalLayout) (choose : Nat → Nat × Int) : Binary64 → Text
  | nan => "nan"
  | signed negative rank =>
    let magnitude : Text :=
      if rank = 0 then if layout.keepsPoint then ['0', '.', '0'] else ['0']
      else if rank < infiniteRank then layOut layout (choose rank).1 (choose rank).2
      else ['i', 'n', 'f']
    if negative then '-' :: magnitude else magnitude

/-- Exact values show the fewest digits that read back, always with a point or an exponent, and an
exponent below 10^-4 and from 10^16 on. -/
def exactLayout : DecimalLayout := ⟨-4, 16, true⟩

/-- Rounded values show six significant digits without zeros at the end, and an exponent below 10^-4
and from 10^6 on. -/
def roundedLayout : DecimalLayout := ⟨-4, 6, false⟩

/-- The text of a number that reads back as the number. -/
def toText (x : Binary64) : Text := written exactLayout shortest x

/-- The text of a number rounded to six significant digits. -/
def toRoundedText (x : Binary64) : Text := written roundedLayout (significant 6) x

end Binary64

end Composer
