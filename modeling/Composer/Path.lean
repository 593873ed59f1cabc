import Composer.Text.Basic

/-!
Paths of files and folders, with slashes between their parts. A path is written without empty parts
and without parts that stay where they are; two slashes at the start are kept apart from one and
from three.
-/

namespace Composer.Path

/-- The slashes that a path starts with, as far as they matter. -/
def root (path : Text) : Text :=
  match (path.takeWhile (· == '/')).length with
  | 0 => []
  | 2 => ['/', '/']
  | _ => ['/']

def parts (path : Text) : List Text :=
  (Text.splitWhere (· == '/') path).filter fun part => !part.isEmpty && part != ['.']

def ofParts (start : Text) (parts : List Text) : Text :=
  let written := start ++ Text.joinWith ['/'] parts
  if written.isEmpty then ['.'] else written

def normal (path : Text) : Text := ofParts (root path) (parts path)

def inside (folder name : Text) : Text := ofParts (root folder) (parts folder ++ [name])

/-- A path that may start with a tilde for the home folder; none when it is the home of somebody
else, which is not known. -/
def atHome? (home path : Text) : Option Text :=
  if (root path).isEmpty then
    match parts path with
    | ['~'] :: rest => some (ofParts (root home) (parts home ++ rest))
    | ('~' :: _) :: _ => none
    | _ => some (normal path)
  else some (normal path)

end Composer.Path
