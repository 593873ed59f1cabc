/-!
Texts and the operations on them that every other module shares: what follows a given beginning, the
first place where a needle stands, counting, cutting at a character and joining again.

A text is a list of Unicode scalar values, so positions and lengths count characters and a statement
about a text is a statement about a list. String literals stand for their characters.
-/

namespace Composer

/-- A text, one list element for each character. -/
abbrev Text := List Char

/-- A literal stands for its characters wherever a text is expected. -/
instance : Coe String Text := ⟨String.toList⟩

namespace Text

abbrev lineFeed : Char := '\n'

def after? : (lead : Text) → Text → Option Text
  | [], t => some t
  | _ :: _, [] => none
  | l :: lead, c :: t => if l = c then after? lead t else none

def startsWith (t lead : Text) : Bool := (after? lead t).isSome

/-- What comes before `ending` when the text ends with it. -/
def before? (ending t : Text) : Option Text := (after? ending.reverse t.reverse).map List.reverse

/-- Whether some suffix of the text, the empty one included, satisfies `p`. -/
def anywhere (p : Text → Bool) : Text → Bool
  | [] => p []
  | c :: t => p (c :: t) || anywhere p t

/-- How many non-empty suffixes of the text satisfy `p`. -/
def countWhere (p : Text → Bool) : Text → Nat
  | [] => 0
  | c :: t => (if p (c :: t) then 1 else 0) + countWhere p t

def contains (t needle : Text) : Bool := anywhere (·.startsWith needle) t

def countChar (t : Text) (c : Char) : Nat := List.count c t

/-- The parts of the text before and after the first place where the needle stands. -/
def cut? (needle : Text) : Text → Option (Text × Text)
  | [] => if needle = [] then some ([], []) else none
  | c :: t =>
    match after? needle (c :: t) with
    | some rest => some ([], rest)
    | none => (cut? needle t).map fun (before, rest) => (c :: before, rest)

/-- The pieces between the characters that satisfy `p`; always at least one piece. -/
def splitWhere (p : Char → Bool) : Text → List Text
  | [] => [[]]
  | c :: t =>
    if p c then [] :: splitWhere p t
    else
      match splitWhere p t with
      | piece :: pieces => (c :: piece) :: pieces
      | [] => [[c]]

/-- The lines of a text, cut at line feeds only. A final line feed is followed by an empty line. -/
def lines (t : Text) : List Text := splitWhere (· == lineFeed) t

def joinWith (sep : Text) : List Text → Text
  | [] => []
  | [piece] => piece
  | piece :: pieces => piece ++ sep ++ joinWith sep pieces

def unlines (pieces : List Text) : Text := joinWith [lineFeed] pieces

/-- The text with every occurrence of the character `old` replaced by `new`. -/
def replaceChar (old : Char) (new : Text) (t : Text) : Text :=
  t.flatMap fun c => if c = old then new else [c]

/-- The text without its longest beginning and ending of characters that satisfy `p`. -/
def trimWhere (p : Char → Bool) (t : Text) : Text :=
  ((t.dropWhile p).reverse.dropWhile p).reverse

/-- The text without its longest ending of characters that satisfy `p`. -/
def trimEndWhere (p : Char → Bool) (t : Text) : Text := (t.reverse.dropWhile p).reverse

theorem eq_append_of_after?_eq_some {lead t rest : Text} (h : after? lead t = some rest) :
    t = lead ++ rest := by
  induction lead generalizing t with
  | nil => simp_all [after?]
  | cons l lead ih =>
    cases t with
    | nil => simp [after?] at h
    | cons c t =>
      simp only [after?] at h
      split at h
      · next hc => simp [ih h, hc]
      · simp at h

@[simp] theorem after?_append (lead rest : Text) : after? lead (lead ++ rest) = some rest := by
  induction lead with
  | nil => rfl
  | cons l lead ih => simp [after?, ih]

/-- The two parts of a cut and the needle between them make up the text. -/
theorem eq_append_of_cut?_eq_some {needle t before rest : Text}
    (h : cut? needle t = some (before, rest)) : t = before ++ needle ++ rest := by
  induction t generalizing before with
  | nil =>
    simp only [cut?] at h
    split at h <;> simp_all
  | cons c t ih =>
    simp only [cut?] at h
    split at h
    · next hr => simp only [Option.some.injEq, Prod.mk.injEq] at h
                 obtain ⟨rfl, rfl⟩ := h
                 simp [eq_append_of_after?_eq_some hr]
    · simp only [Option.map_eq_some_iff] at h
      obtain ⟨⟨b, r⟩, hb, heq⟩ := h
      simp only [Prod.mk.injEq] at heq
      obtain ⟨rfl, rfl⟩ := heq
      simp [ih hb]

/-- A cut at a needle that is not empty leaves a shorter rest. -/
theorem length_lt_of_cut?_eq_some {needle t before rest : Text} (hn : needle ≠ [])
    (h : cut? needle t = some (before, rest)) : rest.length < t.length := by
  have := List.length_pos_iff.2 hn
  have := congrArg List.length (eq_append_of_cut?_eq_some h)
  simp at this
  omega

end Text

end Composer
