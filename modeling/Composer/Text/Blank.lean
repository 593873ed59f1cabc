import Composer.Text.Basic

/-!
White space and line boundaries. Both sets are those of the Unicode character database together with
the four information separators U+001C to U+001F; the zero-width space U+200B and the byte order
mark U+FEFF are in neither.
-/

namespace Composer

def isBlank (c : Char) : Bool :=
  let n := c.toNat
  (0x09 ≤ n && n ≤ 0x0D) || (0x1C ≤ n && n ≤ 0x20) || n == 0x85 || n == 0xA0 || n == 0x1680 ||
    (0x2000 ≤ n && n ≤ 0x200A) || n == 0x2028 || n == 0x2029 || n == 0x202F || n == 0x205F ||
    n == 0x3000

/-- A character that ends a line wherever any line boundary counts, not the line feed alone. -/
def isLineBoundary (c : Char) : Bool :=
  let n := c.toNat
  (0x0A ≤ n && n ≤ 0x0D) || (0x1C ≤ n && n ≤ 0x1E) || n == 0x85 || n == 0x2028 || n == 0x2029

namespace Text

def strip (t : Text) : Text := trimWhere isBlank t

def skipBlanks (t : Text) : Text := t.dropWhile isBlank

def isBlankText (t : Text) : Bool := t.all isBlank

def words (t : Text) : List Text := (splitWhere isBlank t).filter (!·.isEmpty)

/-- The lines of a text cut at every line boundary, a carriage return and line feed counting as one.
The end of the text ends a line only if there is something on it. -/
def allLines : Text → List Text
  | [] => []
  | '\r' :: '\n' :: t => [] :: allLines t
  | c :: t =>
    if isLineBoundary c then [] :: allLines t
    else
      match t, allLines t with
      | _ :: _, line :: rest => (c :: line) :: rest
      | _, _ => [[c]]

/-- The text with carriage returns, alone or before a line feed, turned into line feeds: how the
text of a file is read. -/
def unifyLineEnds : Text → Text
  | [] => []
  | '\r' :: '\n' :: t => '\n' :: unifyLineEnds t
  | '\r' :: t => '\n' :: unifyLineEnds t
  | c :: t => c :: unifyLineEnds t

/-- What is left without the white space at the start is no longer than the text. -/
theorem length_skipBlanks_le (t : Text) : t.skipBlanks.length ≤ t.length :=
  (List.dropWhile_sublist isBlank).length_le

end Text

end Composer
