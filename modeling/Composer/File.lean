import Composer.Text.Blank
import Composer.Text.Utf8

/-!
What stands in a file: a text, or bytes that are none. The text of a file is read with all its line
ends turned into line feeds.
-/

namespace Composer

inductive FileContent where
  | text (t : Text)
  | undecodable (fault : Utf8.Fault)
  deriving DecidableEq, Repr

namespace FileContent

def ofBytes (bytes : List Nat) : FileContent :=
  match Utf8.decode bytes with
  | .ok t => text t
  | .error fault => undecodable fault

def read : FileContent → Except Utf8.Fault Text
  | text t => .ok t.unifyLineEnds
  | undecodable fault => .error fault

end FileContent

end Composer
