import Composer.Number.Reading

/-!
The environment that settings are read from. A variable that is missing or blank leaves the default;
so does one that should hold a whole number and does not.
-/

namespace Composer

abbrev Environment := List (Text × Text)

namespace Environment

/-- The value of a variable, as far as it is not blank. -/
def value? (env : Environment) (name : Text) : Option Text :=
  match env.lookup name with
  | some v => if v.isBlankText then none else some v
  | none => none

/-- The text of a variable without white space at its ends. -/
def textOr (env : Environment) (name fallback : Text) : Text :=
  ((env.value? name).map Text.strip).getD fallback

def numberOr (env : Environment) (name : Text) (fallback : Int) : Int :=
  ((env.value? name).bind Reading.wholeNumber?).getD fallback

end Environment

end Composer
