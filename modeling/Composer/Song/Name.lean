import Composer.Text.Digit
import Composer.Text.Keyword

/-!
Names of song files. The name of a file is made of the title's keywords; when another file has it
already, a number is added.
-/

namespace Composer.Song

def slugLimit : Nat := 60

/-- The slug of a title: its keywords with hyphens between them, cut to the limit. -/
def slug (title : Text) : Text := (Text.joinWith ['-'] title.keywords).take slugLimit

def extension : Text := ".md"

/-- The name that is tried as the `n`-th: the first has no number, all others have theirs. -/
def candidate (base : Text) (n : Nat) : Text :=
  base ++ (if n ≤ 1 then [] else '-' :: Text.ofNat n) ++ extension

/-- The first name from the `n`-th on that is not taken; `fuel` bounds the names that are passed
over. -/
def firstFree (base : Text) (taken : List Text) : (fuel n : Nat) → Text
  | 0, n => candidate base n
  | fuel + 1, n =>
    if candidate base n ∈ taken then firstFree base taken fuel (n + 1) else candidate base n

/-- The name of a file for a title, which `fallback` replaces when it has no keywords. Of as many
names as are taken and one more, one is free. -/
def fileName (title fallback : Text) (taken : List Text) : Text :=
  let base := if (slug title).isEmpty then fallback else slug title
  firstFree base taken taken.length 1

end Composer.Song
