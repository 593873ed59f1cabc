import Composer.Text.Blank

/-!
Fenced blocks. A fence is three backquotes in a row; fences pair up from left to right without
overlaps, and what stands between the two of a pair is a block. A fence without a partner fences
nothing.
-/

namespace Composer.Fence

def mark : Text := ['\x60', '\x60', '\x60']

/-- The tags that may follow an opening fence, a longer one before its own beginning. -/
def tags : List Text := ["javascript", "js", "strudel"]

/-- The content of a block: without one leading tag, then without one leading line feed. -/
def content (block : Text) : Text :=
  let untagged := (tags.findSome? (Text.after? · block)).getD block
  (Text.after? [Text.lineFeed] untagged).getD untagged

theorem mark_ne_nil : mark ≠ [] := by decide

/-- What stands between the fences of each pair, in order. -/
def pairs (t : Text) : List Text :=
  match _hOpen : Text.cut? mark t with
  | none => []
  | some (_, afterOpening) =>
    match _hClose : Text.cut? mark afterOpening with
    | none => []
    | some (between, rest) => between :: pairs rest
termination_by t.length
decreasing_by
  have h₁ := Text.length_lt_of_cut?_eq_some mark_ne_nil _hOpen
  have h₂ := Text.length_lt_of_cut?_eq_some mark_ne_nil _hClose
  omega

def blocks (t : Text) : List Text := (pairs t).map content

end Composer.Fence
