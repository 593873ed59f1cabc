import Composer.Text.Basic

/-!
Strings as they come from outside. A string is a row of code points, and a surrogate may stand in it
without its partner; then it is no text, since a text has scalar values alone. Such a string is kept
as it came. Where only a text will do, U+FFFD stands in the place of each surrogate.
-/

namespace Composer

/-- A code point: a character, or a surrogate, known by how far it is behind U+D800. -/
inductive CodePoint where
  | char (c : Char)
  | surrogate (offset : Fin 0x800)
  deriving DecidableEq, Repr, Inhabited

namespace CodePoint

/-- The surrogate with this number. -/
def ofSurrogate (n : Nat) : CodePoint := surrogate (Fin.ofNat 0x800 (n - 0xD800))

def toChar : CodePoint → Char
  | char c => c
  | surrogate _ => '\ufffd'

end CodePoint

/-- A string, one list element for each code point. -/
abbrev WideText := List CodePoint

/-- A text as a string. -/
def Text.widen (t : Text) : WideText := t.map .char

instance : Coe Text WideText := ⟨Text.widen⟩

@[simp] theorem Text.widen_nil : Text.widen [] = [] := rfl

@[simp] theorem Text.widen_cons (c : Char) (t : Text) :
    Text.widen (c :: t) = .char c :: t.widen := rfl

@[simp] theorem Text.widen_append (s t : Text) : (s ++ t).widen = s.widen ++ t.widen :=
  List.map_append

namespace WideText

/-- The text that a string is, if it is one. -/
def narrow? : WideText → Option Text
  | [] => some []
  | .char c :: s => (narrow? s).map (c :: ·)
  | .surrogate _ :: _ => none

/-- The string with U+FFFD for each surrogate. -/
def legible (s : WideText) : Text := s.map CodePoint.toChar

@[simp] theorem narrow?_widen (t : Text) : narrow? t.widen = some t := by
  induction t with
  | nil => rfl
  | cons c t ih => rw [Text.widen_cons, narrow?, ih, Option.map_some]

@[simp] theorem legible_widen (t : Text) : legible t.widen = t := by
  rw [legible, Text.widen, List.map_map]
  exact List.map_id t

/-- A string that is a text is the string of that text. -/
theorem narrow?_eq_some_iff {s : WideText} {t : Text} : s.narrow? = some t ↔ s = t.widen := by
  constructor
  · intro h
    induction s generalizing t with
    | nil =>
        obtain rfl := Option.some.inj h
        rfl
    | cons p s ih =>
        cases p with
        | surrogate offset => exact absurd h nofun
        | char c =>
            obtain ⟨u, hRest, rfl⟩ := Option.map_eq_some_iff.1 h
            exact congrArg (CodePoint.char c :: ·) (ih hRest)
  · rintro rfl
    exact narrow?_widen t

end WideText

theorem Text.widen_injective {s t : Text} (h : s.widen = t.widen) : s = t := by
  rw [← WideText.legible_widen s, h, WideText.legible_widen]

/-- A string that is no text. -/
structure BrokenText where
  codePoints : WideText
  broken : codePoints.narrow? = none

theorem BrokenText.isEmpty_codePoints (t : BrokenText) : t.codePoints.isEmpty = false := by
  rw [List.isEmpty_eq_false_iff]
  intro hEmpty
  have hBroken := t.broken
  rw [hEmpty] at hBroken
  exact absurd hBroken nofun

end Composer
