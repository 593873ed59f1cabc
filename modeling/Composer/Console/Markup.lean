import Composer.Text.Blank
import Composer.Text.Digit

/-!
Markup of console texts. A tag stands in square brackets and styles what follows it, up to a tag
that starts with a slash; backslashes before a tag make it plain. The console has no styles to show,
so what matters is which characters are tags.
-/

namespace Composer.Markup

def startsTag (c : Char) : Bool := ('a' ≤ c && c ≤ 'z') || c == '#' || c == '/' || c == '@'

/-- A tag at the start of a text, without its brackets, and what follows it. There is no opening
bracket inside a tag. -/
def tag? : Text → Option (Text × Text)
  | '[' :: c :: t =>
    if startsTag c then
      match t.dropWhile fun d => d != ']' && d != '[' with
      | ']' :: rest => some (c :: t.takeWhile fun d => d != ']' && d != '[', rest)
      | _ => none
    else none
  | _ => none

theorem length_lt_of_tag?_eq_some {t body rest : Text} (h : tag? t = some (body, rest)) :
    rest.length < t.length := by
  unfold tag? at h
  split at h
  · rename_i c t
    split at h
    · split at h
      · rename_i u hd
        simp only [Option.some.injEq, Prod.mk.injEq] at h
        have := (List.dropWhile_sublist (l := t) fun d => d != ']' && d != '[').length_le
        rw [hd] at this
        simp only [List.length_cons] at this ⊢
        rw [← h.2]
        omega
      · simp at h
    · simp at h
  · simp at h

/-- The text with backslashes before every tag: twice as many as there were, and one more. -/
def shielded (t : Text) : Text :=
  match t with
  | [] => []
  | c :: u =>
    let slashes := (c :: u).takeWhile (· == '\\')
    match _h : tag? ((c :: u).dropWhile (· == '\\')) with
    | some (body, rest) => slashes ++ slashes ++ '\\' :: '[' :: body ++ ']' :: shielded rest
    | none => c :: shielded u
termination_by t.length
decreasing_by
  · have h₁ := length_lt_of_tag?_eq_some _h
    have h₂ := (List.dropWhile_sublist (l := c :: u) (· == '\\')).length_le
    simp only [List.length_cons] at h₁ h₂ ⊢
    omega
  · simp

/-- The markup that shows a text as it is. A single backslash at the end is doubled. -/
def escape (t : Text) : Text :=
  let escaped := shielded t
  match escaped.reverse with
  | '\\' :: '\\' :: _ => escaped
  | '\\' :: _ => escaped ++ ['\\']
  | _ => escaped

/-- A part of a markup text: characters, or a tag with its position. -/
inductive Piece where
  | plain (t : Text)
  | tag (position : Nat) (body : Text)
  deriving DecidableEq, Repr

/-- The parts of a markup text from a position on; `before` is what was passed over since the last
tag. -/
def piecesFrom (position : Nat) (before : Text) (t : Text) : List Piece :=
  match t with
  | [] => [.plain before]
  | c :: u =>
    let slashes := ((c :: u).takeWhile (· == '\\')).length
    match _h : tag? ((c :: u).dropWhile (· == '\\')) with
    | some (body, rest) =>
      let shown := .plain (List.replicate (slashes / 2) '\\')
      let found :=
        if slashes % 2 = 1 then .plain ('[' :: body ++ [']'])
        else .tag (position + slashes) body
      .plain before :: shown :: found ::
        piecesFrom (position + slashes + body.length + 2) [] rest
    | none => piecesFrom (position + 1) (before ++ [c]) u
termination_by t.length
decreasing_by
  · have h₁ := length_lt_of_tag?_eq_some _h
    have h₂ := (List.dropWhile_sublist (l := c :: u) (· == '\\')).length_le
    simp only [List.length_cons] at h₁ h₂ ⊢
    omega
  · simp

/-- Plain characters as they are shown: a backslash before an opening bracket is left out. -/
def shownPlain : Text → Text
  | '\\' :: '[' :: t => '[' :: shownPlain t
  | c :: t => c :: shownPlain t
  | [] => []

/-- Why a markup text cannot be shown: a closing tag without an open one. -/
structure Fault where
  body : Text
  position : Nat
  deriving DecidableEq, Repr

def Fault.message (f : Fault) : Text :=
  "closing tag '[" ++ f.body ++ "]' at position " ++ Text.ofNat f.position ++
    (if Text.isBlankText (f.body.drop 1) then " has nothing to close"
      else " doesn't match any open tag")

/-- The name of a tag: what comes before an equals sign, its case ignored. -/
def nameOf (body : Text) : Text := (Text.strip (body.takeWhile (· != '='))).map Char.toLower

/-- The characters that parts show, given the names of the tags that are open, the last one
first. -/
def showPieces : (opened : List Text) → List Piece → Except Fault Text
  | _, [] => .ok []
  | opened, .plain t :: rest => (showPieces opened rest).map (shownPlain t ++ ·)
  | opened, .tag position ('/' :: body) :: rest =>
    let name := nameOf body
    if name.isEmpty then
      match opened with
      | [] => .error ⟨'/' :: body, position⟩
      | _ :: opened => showPieces opened rest
    else if opened.contains name then showPieces (opened.erase name) rest
    else .error ⟨'/' :: body, position⟩
  | opened, .tag _ body :: rest => showPieces (nameOf body :: opened) rest

def plain (t : Text) : Except Fault Text := showPieces [] (piecesFrom 0 [] t)

end Composer.Markup
