import Composer.Text.Letter

/-!
Keywords: what is left of a text when only the letters and digits of ASCII count and letter case
does not.
-/

namespace Composer

def isKeywordChar (c : Char) : Bool := ('a' ≤ c && c ≤ 'z') || ('0' ≤ c && c ≤ '9')

/-- The keywords of a text in order: in lower case, its longest runs of letters and digits of
ASCII. -/
def Text.keywords (t : Text) : List Text :=
  (Text.splitWhere (!isKeywordChar ·) t.lower).filter (!·.isEmpty)

end Composer
