import Composer.Text.Basic

/-!
Undoing escapes that a model leaves in its code: a backslash before a quotation mark is dropped, and
one before `n`, `r` or `t` becomes, with that letter, a line feed, a carriage return or a tab. This
is repeated until nothing changes; each round that changes the text makes it shorter, so it ends.

`settled` says the same in one pass, run of backslashes by run of backslashes.
-/

namespace Composer.Escapes

/-- Whether a backslash before the character is dropped. -/
def isMark (c : Char) : Bool := c == '"' || c == '\''

/-- The character that a backslash and a letter stand for. -/
def control? : Char → Option Char
  | 'n' => some '\n'
  | 'r' => some '\r'
  | 't' => some '\t'
  | _ => none

def dropMarks : Text → Text
  | [] => []
  | [c] => [c]
  | '\\' :: c :: t => if isMark c then c :: dropMarks t else '\\' :: dropMarks (c :: t)
  | c :: d :: t => c :: dropMarks (d :: t)

def expandControls : Text → Text
  | [] => []
  | [c] => [c]
  | '\\' :: c :: t =>
    match control? c with
    | some e => e :: expandControls t
    | none => '\\' :: expandControls (c :: t)
  | c :: d :: t => c :: expandControls (d :: t)

/-- One round: first the quotation marks, then the letters. -/
def round (t : Text) : Text := expandControls (dropMarks t)

theorem length_dropMarks_le (t : Text) : (dropMarks t).length ≤ t.length := by
  fun_induction dropMarks t with
  | case1 => exact Nat.le_refl 0
  | case2 c => exact Nat.le_refl 1
  | case3 c t hMark ih => exact Nat.succ_le_succ (Nat.le_succ_of_le ih)
  | case4 c t hMark ih => exact Nat.succ_le_succ ih
  | case5 c d t hOther ih => exact Nat.succ_le_succ ih

theorem length_expandControls_le (t : Text) : (expandControls t).length ≤ t.length := by
  fun_induction expandControls t with
  | case1 => exact Nat.le_refl 0
  | case2 c => exact Nat.le_refl 1
  | case3 c t e hControl ih => exact Nat.succ_le_succ (Nat.le_succ_of_le ih)
  | case4 c t hControl ih => exact Nat.succ_le_succ ih
  | case5 c d t hOther ih => exact Nat.succ_le_succ ih

/-- A round over the quotation marks that keeps the length changes nothing. -/
theorem dropMarks_eq_self {t : Text} (h : (dropMarks t).length = t.length) : dropMarks t = t := by
  fun_induction dropMarks t with
  | case1 => rfl
  | case2 => rfl
  | case3 c t hc ih =>
    have := length_dropMarks_le t
    simp at h
    omega
  | case4 c t hc ih => simp at h; rw [ih (by simpa using h)]
  | case5 c d t _ ih => simp at h; rw [ih (by simpa using h)]

/-- A round over the letters that keeps the length changes nothing. -/
theorem expandControls_eq_self {t : Text} (h : (expandControls t).length = t.length) :
    expandControls t = t := by
  fun_induction expandControls t with
  | case1 => rfl
  | case2 => rfl
  | case3 c t e he ih =>
    have := length_expandControls_le t
    simp at h
    omega
  | case4 c t he ih => simp at h; rw [ih (by simpa using h)]
  | case5 c d t _ ih => simp at h; rw [ih (by simpa using h)]

theorem length_round_lt {t : Text} (h : round t ≠ t) : (round t).length < t.length := by
  have h₁ := length_dropMarks_le t
  have h₂ := length_expandControls_le (dropMarks t)
  unfold round at *
  rcases Nat.lt_or_ge (expandControls (dropMarks t)).length t.length with hlt | hge
  · exact hlt
  · exfalso
    apply h
    have hd := dropMarks_eq_self (t := t) (by omega)
    rw [hd] at hge h₂ ⊢
    exact expandControls_eq_self (by omega)

def undo (t : Text) : Text :=
  if round t = t then t else undo (round t)
termination_by t.length
decreasing_by exact length_round_lt (by assumption)

/-- The text with every run of backslashes settled at once, after `count` backslashes that wait for
the character behind them: before a quotation mark the run is dropped, before one of the letters its
last backslash and the letter become the control character, and before anything else it stays. -/
def settledAfter : (count : Nat) → Text → Text
  | count, [] => List.replicate count '\\'
  | count, c :: t =>
    if c = '\\' then settledAfter (count + 1) t
    else if count = 0 then c :: settledAfter 0 t
    else if isMark c then c :: settledAfter 0 t
    else
      match control? c with
      | some e => List.replicate (count - 1) '\\' ++ e :: settledAfter 0 t
      | none => List.replicate count '\\' ++ c :: settledAfter 0 t

def settled (t : Text) : Text := settledAfter 0 t

end Composer.Escapes
