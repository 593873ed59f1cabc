import Composer.Text.Basic

/-!
The order of texts by code points, and the beginnings of a list counted from either end.
-/

namespace Composer

/-- Whether `s` comes before `t` or equals it, comparing code point by code point. -/
def Text.atMost : (s t : Text) → Bool
  | [], _ => true
  | _ :: _, [] => false
  | a :: s, b :: t => a < b || (a == b && atMost s t)

/-- The first `count` items of a list; a negative count leaves out that many at the end. -/
def upTo {α : Type} (count : Int) (items : List α) : List α :=
  if 0 ≤ count then items.take count.toNat else items.take (items.length - (-count).toNat)

end Composer
