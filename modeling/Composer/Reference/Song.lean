import Composer.Field.Reading
import Composer.Text.Blank
import Composer.Text.Keyword
import Composer.Text.Order

/-!
Songs of a reference dataset: what is known of each, the words it is found by, and the snippet of it
that is shown.
-/

namespace Composer

structure ReferenceSong where
  title : Text
  author : Option Text
  genres : List Text
  moods : List Text
  techniques : List Text
  bpm : Option Binary64
  code : Text
  deriving DecidableEq, Repr, Inhabited

namespace ReferenceSong

/-- A song given as an object; unknown members are passed over. A tempo given as an integer has to
fit 64 bits. -/
def ofJson (found : Json) : Checked ReferenceSong :=
  (Field.members .modelType found).andThen fun ms =>
    ReferenceSong.mk
      <$> Field.required "title" Field.text ms
      <*> Field.defaulted "author" none (Field.optional Field.text) ms
      <*> Field.defaulted "genres" [] (Field.list Field.text) ms
      <*> Field.defaulted "moods" [] (Field.list Field.text) ms
      <*> Field.defaulted "techniques" [] (Field.list Field.text) ms
      <*> Field.defaulted "bpm" none (Field.optional (Field.number Field.isInt64)) ms
      <*> Field.defaulted "code" [] Field.text ms

def snippet (maxLines : Int) (s : ReferenceSong) : Text :=
  Text.unlines (upTo maxLines (s.code.strip.lines.filter fun line => !line.isBlankText))

def keywordsOf (t : Text) : List Text := t.keywords.eraseDups

def keywords (s : ReferenceSong) : List Text :=
  keywordsOf (Text.joinWith [' '] (s.title :: s.genres ++ s.moods ++ s.techniques))

/-- Whether two songs agree in everything. A tempo that is not a number agrees with none, and both
zeros are one tempo. -/
def agrees (s t : ReferenceSong) : Bool :=
  s.title == t.title && s.author == t.author && s.genres == t.genres && s.moods == t.moods &&
    s.techniques == t.techniques && s.code == t.code &&
    match s.bpm, t.bpm with
    | none, none => true
    | some x, some y => x.sameValue y
    | _, _ => false

end ReferenceSong

end Composer
