import Composer.Response.Fence
import Composer.Text.Blank
import Composer.Text.Letter

/-!
Song sheets: the text of a song file. A sheet has a heading with the title, a line with the time of
creation, perhaps a line with the prompt, and the code in a fenced block. Reading looks for the
three header lines among the first eight lines, in any order, and takes everything for code when
there is no block.
-/

namespace Composer

structure SongSheet where
  title : Text
  created : Text
  prompt : Option Text
  code : Text
  deriving DecidableEq, Repr, Inhabited

namespace SongSheet

def titleStart : Text := "# "

def createdStart : Text := "created:"

def promptStart : Text := "prompt:"

def tag : Text := "strudel"

/-- The line with the prompt; none when there is no prompt or an empty one. -/
def promptLines : Option Text → List Text
  | some (c :: t) => [promptStart ++ ' ' :: c :: t]
  | _ => []

def write (s : SongSheet) : Text :=
  Text.unlines
    ([titleStart ++ s.title, createdStart ++ ' ' :: s.created] ++ promptLines s.prompt ++
      [[], Fence.mark ++ tag, s.code.strip, Fence.mark, []])

structure Header where
  title : Text
  created : Text
  prompt : Option Text
  deriving DecidableEq, Repr, Inhabited

def headerLimit : Nat := 8

def nonEmpty? (t : Text) : Option Text := if t.isEmpty then none else some t

/-- The header after one more line. A field that was found already, and is not empty, stays. -/
def Header.addLine (h : Header) (line : Text) : Header :=
  match if h.title.isEmpty then Text.after? titleStart line else none with
  | some rest => { h with title := rest.strip }
  | none =>
    match if h.created.isEmpty then Text.afterFolded? createdStart line else none with
    | some rest => { h with created := rest.strip }
    | none =>
      match if h.prompt.isNone then Text.afterFolded? promptStart line else none with
      | some rest => { h with prompt := nonEmpty? rest.strip }
      | none => h

def Header.ofText (t : Text) : Header :=
  (t.allLines.take headerLimit).foldl Header.addLine ⟨[], [], none⟩

/-- What stands in the first block of a text, its tag left out. -/
def block? (t : Text) : Option Text :=
  (Text.cut? Fence.mark t).bind fun (_, rest) =>
    (Text.cut? Fence.mark ((Text.afterFolded? tag rest).getD rest)).map Prod.fst

def ofText (t : Text) : SongSheet :=
  let h := Header.ofText t
  ⟨h.title, h.created, h.prompt, ((block? t).getD t).strip⟩

end SongSheet

end Composer
