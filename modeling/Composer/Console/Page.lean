import Composer.Console.Markup

/-!
What the console shows of a text: five control characters are dropped, and a tab goes on to the next
column that is a multiple of eight.
-/

namespace Composer.Console

def width : Nat := 200

/-- The control characters that are dropped: bell, backspace, vertical tab, form feed, carriage
return. -/
def isDropped (c : Char) : Bool := [7, 8, 11, 12, 13].contains c.toNat

def tabWidth : Nat := 8

/-- A text with its tabs filled up, given the column that it starts in. -/
def fillTabs : (column : Nat) → Text → Text
  | _, [] => []
  | column, c :: t =>
    if c = '\t' then
      let count := tabWidth - column % tabWidth
      List.replicate count ' ' ++ fillTabs (column + count) t
    else if c = Text.lineFeed then c :: fillTabs 0 t
    else c :: fillTabs (column + 1) t

def shown (t : Text) : Text := fillTabs 0 (t.filter (!isDropped ·))

def line (t : Text) : Text := shown t ++ [Text.lineFeed]

/-- A rule across the console with a title in its middle. -/
def rule (title : Text) : Text :=
  let left := (width - title.length - 2) / 2
  List.replicate left '─' ++ ' ' :: title ++ ' ' ::
    List.replicate (width - title.length - 2 - left) '─' ++ [Text.lineFeed]

end Composer.Console
