import Composer.Json.Reader
import Composer.Proofs.Text.Digits
import Mathlib.Data.List.Infix
import Mathlib.Data.List.TakeWhile

/-!
What ends the reading of a JSON text for another reason than that the text is malformed. A whole
number is refused only for its digits, and these stand in the text in one row; nesting is refused
only for its depth, and so many brackets open in the text. So a text without a long row of digits
and without many brackets is read or is malformed (`Json.borne_read`). Both happen: a long row of
digits alone is refused, and so is a long row of opening brackets.
-/

namespace Composer.Json

/-- How many characters of a text can open an array or an object. -/
def openings (t : Text) : Nat := t.countP fun c => c == '[' || c == '\x7b'

theorem openings_cons (c : Char) (t : Text) :
    openings (c :: t) = openings t + if c == '[' || c == '\x7b' then 1 else 0 :=
  List.countP_cons

/-- How reading at the start of a text can end, as far as the text itself shows it: with a rest that
is an end of the text, at a malformed place, at a row of too many digits, or below more brackets
than may be nested. -/
inductive Borne {α : Type} (depth : Nat) (t : Text) : Except ReadError (α × Text) → Prop where
  | rest (a : α) {rest : Text} (hRest : rest <:+ t) : Borne depth t (.ok (a, rest))
  | malformed (complaint : Complaint) (left : Nat) :
      Borne depth t (.error (.malformed complaint left))
  | digits {digits : Text} (hDigits : digits.all isAsciiDigit)
      (hMany : Reading.digitLimit < digits.length) (hFound : digits <:+: t) :
      Borne depth t (.error (.oversizedInteger digits.length))
  | brackets (inArray : Bool) (hMany : depth < openings t) :
      Borne depth t (.error (.tooDeep inArray))

namespace Borne

variable {α β : Type} {depth : Nat} {s t : Text}

theorem of_suffix {x : Except ReadError (α × Text)} (h : Borne depth s x) (hSuffix : s <:+ t) :
    Borne depth t x := by
  cases h with
  | rest a hRest => exact .rest a (hRest.trans hSuffix)
  | malformed complaint left => exact .malformed complaint left
  | digits hDigits hMany hFound => exact .digits hDigits hMany (hFound.trans hSuffix.isInfix)
  | brackets inArray hMany =>
      exact .brackets inArray (hMany.trans_le (hSuffix.sublist.countP_le))

/-- One level less is left behind a bracket. -/
theorem behind_bracket {c : Char} {x : Except ReadError (α × Text)} (h : Borne depth s x)
    (hSuffix : s <:+ t) (hOpens : c = '[' ∨ c = '\x7b') : Borne (depth + 1) (c :: t) x := by
  cases h with
  | rest a hRest => exact .rest a (hRest.trans (hSuffix.trans (List.suffix_cons c t)))
  | malformed complaint left => exact .malformed complaint left
  | digits hDigits hMany hFound =>
      exact .digits hDigits hMany (hFound.trans (hSuffix.trans (List.suffix_cons c t)).isInfix)
  | brackets inArray hMany =>
      have hInside : openings s ≤ openings t := hSuffix.sublist.countP_le
      have hOpening : (c == '[' || c == '\x7b') = true := by simpa using hOpens
      refine .brackets inArray ?_
      rw [openings_cons, hOpening, if_pos rfl]
      omega

/-- What is made of the value that was read changes nothing. -/
theorem map {x : Except ReadError (α × Text)} (h : Borne depth t x) (f : α → β) :
    Borne depth t (x.map fun found => (f found.1, found.2)) := by
  cases h with
  | rest a hRest => exact .rest (f a) hRest
  | malformed complaint left => exact .malformed complaint left
  | digits hDigits hMany hFound => exact .digits hDigits hMany hFound
  | brackets inArray hMany => exact .brackets inArray hMany

/-- A part that is read first is borne out as a whole is, and what follows it by its rest. -/
theorem error_of_error {e : ReadError} (h : Borne (α := α) depth t (.error e)) :
    Borne (α := β) depth t (.error e) := by
  cases h with
  | malformed complaint left => exact .malformed complaint left
  | digits hDigits hMany hFound => exact .digits hDigits hMany hFound
  | brackets inArray hMany => exact .brackets inArray hMany

theorem suffix_of_ok {a : α} {rest : Text} (h : Borne depth t (.ok (a, rest))) : rest <:+ t := by
  cases h with
  | rest _ hRest => exact hRest

end Borne

namespace Reader

theorem skipSpaces_suffix (t : Text) : skipSpaces t <:+ t := List.dropWhile_suffix _

/-! ### Strings -/

theorem suffix_of_hexQuad?_eq_some {t rest : Text} {n : Nat} (h : hexQuad? t = some (n, rest)) :
    rest <:+ t := by
  unfold hexQuad? at h
  split at h
  · split at h
    · obtain ⟨-, rfl⟩ := Prod.mk.inj (Option.some.inj h)
      exact ⟨[_, _, _, _], rfl⟩
    · exact absurd h nofun
  · exact absurd h nofun

theorem borne_codePoint (depth start : Nat) (t : Text) : Borne depth t (codePoint start t) := by
  unfold codePoint
  split
  · next t =>
      have hSuffix {rest : Text} (h : rest <:+ t) : rest <:+ '\\' :: 'u' :: t :=
        h.trans ⟨['\\', 'u'], rfl⟩
      split
      · exact .malformed _ _
      · next high rest hHigh =>
          have hRest := hSuffix (suffix_of_hexQuad?_eq_some hHigh)
          split
          · exact .malformed _ _
          · split
            · split
              · next u =>
                  split
                  · next low rest' hLow =>
                      split
                      · refine .rest _ (((suffix_of_hexQuad?_eq_some hLow).trans ?_).trans hRest)
                        exact ⟨['\\', 'u'], rfl⟩
                      · exact .rest _ hRest
                  · exact .rest _ hRest
              · exact .rest _ hRest
            · split
              · exact .rest _ hRest
              · exact .rest _ hRest
  · next c t _ =>
      split
      · exact .rest _ ⟨['\\', c], rfl⟩
      · exact .malformed _ _
  · exact .malformed _ _
  · next c t _ _ _ =>
      split
      · exact .malformed _ _
      · exact .rest _ (List.suffix_cons c t)
  · exact .malformed _ _

theorem borne_codePoints (depth start fuel : Nat) (t : Text) :
    Borne depth t (codePoints start fuel t) := by
  induction fuel, t using codePoints.induct start with
  | case1 t => exact .malformed _ _
  | case2 fuel t => exact .rest _ (List.suffix_cons '"' t)
  | case3 fuel t hOpen e hError =>
      have hUnit := borne_codePoint depth start t
      rw [hError] at hUnit
      rw [codePoints, hError]
      exacts [hUnit.error_of_error, hOpen]
  | case4 fuel t hOpen p rest hOk ih =>
      have hUnit := borne_codePoint depth start t
      rw [hOk] at hUnit
      rw [codePoints, hOk]
      exacts [(ih.map (p :: ·)).of_suffix hUnit.suffix_of_ok, hOpen]

theorem borne_string (admitBroken : Bool) (depth : Nat) (t : Text) :
    Borne depth t (string admitBroken t) := by
  have hFound := borne_codePoints depth (t.length + 1) (t.length + 1) t
  unfold string
  split
  · next e hError =>
      rw [hError] at hFound
      exact hFound.error_of_error
  · next s rest hOk =>
      rw [hOk] at hFound
      split
      · exact .rest s hFound.suffix_of_ok
      · exact .malformed _ _

/-! ### Numbers and words -/

theorem suffix_of_fraction?_eq_some {t digits rest : Text} (h : fraction? t = some (digits, rest)) :
    rest <:+ t := by
  unfold fraction? at h
  split at h
  · next u =>
      simp only at h
      split at h
      · exact absurd h nofun
      · obtain ⟨-, rfl⟩ := Prod.mk.inj (Option.some.inj h)
        exact (List.dropWhile_suffix _).trans (List.suffix_cons _ u)
  · exact absurd h nofun

theorem suffix_sign (t : Text) : (Reading.sign t).2 <:+ t := by
  unfold Reading.sign
  split
  · exact List.suffix_cons _ _
  · exact List.suffix_cons _ _
  · exact List.suffix_rfl

theorem suffix_of_exponent?_eq_some {t rest : Text} {e : Int} (h : exponent? t = some (e, rest)) :
    rest <:+ t := by
  unfold exponent? at h
  split at h
  · next mark u =>
      split at h
      · simp only at h
        split at h
        · exact absurd h nofun
        · obtain ⟨-, rfl⟩ := Prod.mk.inj (Option.some.inj h)
          exact (List.dropWhile_suffix _).trans ((suffix_sign u).trans (List.suffix_cons mark u))
      · exact absurd h nofun
  · exact absurd h nofun

/-- A number is refused for its digits only in its whole part. -/
theorem borne_number (depth start : Nat) (negative : Bool) (t : Text) :
    Borne depth t (number start negative t) := by
  unfold number
  split
  next whole behind hWhole =>
  obtain ⟨hSpan, hDigits⟩ : whole ++ behind = t ∧ whole.all isAsciiDigit := by
    split at hWhole
    · obtain ⟨rfl, rfl⟩ := Prod.mk.inj hWhole
      exact ⟨rfl, rfl⟩
    · obtain ⟨rfl, rfl⟩ := Prod.mk.inj hWhole
      exact ⟨List.takeWhile_append_dropWhile, List.all_takeWhile⟩
  have hBehind : behind <:+ t := ⟨whole, hSpan⟩
  have hFraction : ((fraction? behind).getD ([], behind)).2 <:+ behind := by
    cases h : fraction? behind with
    | none => exact List.suffix_rfl
    | some found => exact suffix_of_fraction?_eq_some h
  split
  · exact .malformed _ _
  · simp only
    split
    · next e rest hExponent =>
        exact .rest _ ((suffix_of_exponent?_eq_some hExponent).trans (hFraction.trans hBehind))
    · split
      · exact .rest _ (hFraction.trans hBehind)
      · split
        · next hMany => exact .digits hDigits hMany ⟨[], behind, hSpan⟩
        · exact .rest _ hBehind

theorem borne_scalar (depth : Nat) (t : Text) : Borne depth t (scalar t) := by
  unfold scalar
  split
  · next found hWord =>
      obtain ⟨⟨word, j⟩, -, hFound⟩ := List.exists_of_findSome?_eq_some hWord
      obtain ⟨rest, hRest, rfl⟩ := Option.map_eq_some_iff.1 hFound
      exact .rest j ⟨word, (Text.eq_append_of_after?_eq_some hRest).symm⟩
  · split
    · next u _ => exact (borne_number depth _ true u).of_suffix (List.suffix_cons _ u)
    · exact borne_number depth _ false t

/-! ### Nested values -/

section
variable (admitBroken : Bool) {fuel : Nat}

/-- The readers of nested values are borne out, with so many steps left. -/
structure AllBorne (fuel : Nat) : Prop where
  value : ∀ depth t, Borne depth t (Reader.value admitBroken fuel depth t)
  items : ∀ depth t, Borne depth t (Reader.items admitBroken fuel depth t)
  members : ∀ depth before t, Borne depth t (Reader.members admitBroken fuel depth before t)
  memberValue : ∀ depth before key t,
    Borne depth t (Reader.memberValue admitBroken fuel depth before key t)

variable {admitBroken} (ih : AllBorne admitBroken fuel)
include ih

theorem borne_value (depth : Nat) (t : Text) :
    Borne depth t (Reader.value admitBroken (fuel + 1) depth t) := by
  unfold Reader.value
  split
  · next u =>
      exact ((borne_string admitBroken depth u).map ofString).of_suffix (List.suffix_cons _ u)
  · next u =>
      cases depth with
      | zero =>
          refine .brackets true ?_
          rw [openings_cons]
          exact Nat.succ_pos _
      | succ depth =>
          have hSpaces := skipSpaces_suffix u
          simp only
          split
          · next rest hEmpty =>
              rw [hEmpty] at hSpaces
              exact .rest _ (((List.suffix_cons _ rest).trans hSpaces).trans (List.suffix_cons _ u))
          · exact ((ih.items depth _).map Json.arr).behind_bracket hSpaces (.inl rfl)
  · next u =>
      cases depth with
      | zero =>
          refine .brackets false ?_
          rw [openings_cons]
          exact Nat.succ_pos _
      | succ depth =>
          have hSpaces := skipSpaces_suffix u
          simp only
          split
          · next rest hEmpty =>
              rw [hEmpty] at hSpaces
              exact .rest _ (((List.suffix_cons _ rest).trans hSpaces).trans (List.suffix_cons _ u))
          · exact ((ih.members depth [] _).map Json.obj).behind_bracket hSpaces (.inr rfl)
  · exact borne_scalar depth t

theorem borne_items (depth : Nat) (t : Text) :
    Borne depth t (Reader.items admitBroken (fuel + 1) depth t) := by
  have hValue := ih.value depth t
  unfold Reader.items
  split
  · next e hError =>
      rw [hError] at hValue
      exact hValue.error_of_error
  · next item rest hOk =>
      rw [hOk] at hValue
      have hRest := (skipSpaces_suffix rest).trans hValue.suffix_of_ok
      split
      · next u hMore =>
          rw [hMore] at hRest
          exact ((ih.items depth _).map (item :: ·)).of_suffix
            ((skipSpaces_suffix u).trans ((List.suffix_cons _ u).trans hRest))
      · next u hEnd =>
          rw [hEnd] at hRest
          exact .rest _ ((List.suffix_cons _ u).trans hRest)
      · exact .malformed _ _

theorem borne_members (depth : Nat) (before : List (Text × Json)) (t : Text) :
    Borne depth t (Reader.members admitBroken (fuel + 1) depth before t) := by
  unfold Reader.members
  split
  · next u =>
      have hString := (borne_string admitBroken depth u).of_suffix (List.suffix_cons '"' u)
      split
      · next e hError =>
          rw [hError] at hString
          exact hString.error_of_error
      · next key rest hOk =>
          rw [hOk] at hString
          exact (ih.memberValue depth before key rest).of_suffix hString.suffix_of_ok
  · exact .malformed _ _

theorem borne_memberValue (depth : Nat) (before : List (Text × Json)) (key : WideText)
    (t : Text) :
    Borne depth t (Reader.memberValue admitBroken (fuel + 1) depth before key t) := by
  have hColon := skipSpaces_suffix t
  unfold Reader.memberValue
  split
  · next v hHere =>
      rw [hHere] at hColon
      have hValue := (ih.value depth (skipSpaces v)).of_suffix
        ((skipSpaces_suffix v).trans ((List.suffix_cons _ v).trans hColon))
      split
      · next e hError =>
          rw [hError] at hValue
          exact hValue.error_of_error
      · next item rest hOk =>
          rw [hOk] at hValue
          have hRest := (skipSpaces_suffix rest).trans hValue.suffix_of_ok
          simp only
          split
          · next w hMore =>
              rw [hMore] at hRest
              exact (ih.members depth _ _).of_suffix
                ((skipSpaces_suffix w).trans ((List.suffix_cons _ w).trans hRest))
          · next w hEnd =>
              rw [hEnd] at hRest
              exact .rest _ ((List.suffix_cons _ w).trans hRest)
          · exact .malformed _ _
  · exact .malformed _ _

end

theorem allBorne (admitBroken : Bool) (fuel : Nat) : AllBorne admitBroken fuel := by
  induction fuel with
  | zero =>
      constructor
      · intro depth t
        rw [Reader.value]
        exact .malformed _ _
      · intro depth t
        rw [Reader.items]
        exact .malformed _ _
      · intro depth before t
        rw [Reader.members]
        exact .malformed _ _
      · intro depth before key t
        rw [Reader.memberValue]
        exact .malformed _ _
  | succ fuel ih =>
      exact ⟨borne_value ih, borne_items ih, borne_members ih, borne_memberValue ih⟩

end Reader

/-! ### Whole texts -/

section
variable {d : Dialect} {t : Text}

theorem borne_read_of_error {e : ReadError} (h : read d t = .error e) :
    Borne (α := Json) d.depth t (.error e) := by
  unfold read at h
  split at h
  · obtain rfl := Except.error.inj h
    exact .malformed _ _
  · have hValue := ((Reader.allBorne d.admitBroken (3 * t.length + 3)).value d.depth
      (Reader.skipSpaces t)).of_suffix (Reader.skipSpaces_suffix t)
    split at h
    · next e' hError =>
        obtain rfl := Except.error.inj h
        rwa [hError] at hValue
    · split at h
      · cases h
      · obtain rfl := Except.error.inj h
        exact .malformed _ _

/-- A text is refused for a whole number only where it holds the digits of one that has too many. -/
theorem digits_of_read_eq_oversizedInteger {n : Nat}
    (h : read d t = .error (.oversizedInteger n)) :
    ∃ digits : Text, digits.all isAsciiDigit ∧ digits.length = n ∧ Reading.digitLimit < n ∧
      digits <:+: t := by
  cases borne_read_of_error h with
  | digits hDigits hMany hFound => exact ⟨_, hDigits, rfl, hMany, hFound⟩

/-- A text is refused for its nesting only where it opens more brackets than may be nested. -/
theorem depth_lt_openings_of_read_eq_tooDeep {inArray : Bool}
    (h : read d t = .error (.tooDeep inArray)) : d.depth < openings t := by
  cases borne_read_of_error h with
  | brackets _ hMany => exact hMany

end

/-! ### Long rows -/

namespace Reader

/-- No word begins with a digit. -/
theorem exists_eq_cons_of_mem_words {entry : Text × Json} (h : entry ∈ words) :
    ∃ c word, entry.1 = c :: word ∧ isAsciiDigit c = false := by
  have hAll : words.all fun entry => entry.1.head?.any fun c => !isAsciiDigit c := by decide
  have hHead := List.all_eq_true.1 hAll entry h
  cases hWord : entry.1 with
  | nil =>
      rw [hWord] at hHead
      cases hHead
  | cons c word =>
      rw [hWord] at hHead
      exact ⟨c, word, rfl, Bool.not_eq_true' _ ▸ hHead⟩

section
variable {t : Text} (hDigits : t.all isAsciiDigit) (hHead : t.head? ≠ some '0')
  (hMany : Reading.digitLimit < t.length)
include hDigits hHead hMany

theorem number_of_digits (start : Nat) (negative : Bool) :
    number start negative t = .error (.oversizedInteger t.length) := by
  have hTake : t.takeWhile isAsciiDigit = t :=
    List.takeWhile_eq_self_iff.2 (List.all_eq_true.1 hDigits)
  have hDrop : t.dropWhile isAsciiDigit = [] :=
    List.dropWhile_eq_nil_iff.2 (List.all_eq_true.1 hDigits)
  have hNonempty : t ≠ [] := List.ne_nil_of_length_pos (by omega)
  unfold number
  split
  next whole rest hWhole =>
  split at hWhole
  · exact absurd rfl hHead
  · rw [hTake, hDrop] at hWhole
    obtain ⟨rfl, rfl⟩ := Prod.mk.inj hWhole
    rw [if_neg hNonempty]
    simp [fraction?, exponent?, hMany]

theorem scalar_of_digits : scalar t = .error (.oversizedInteger t.length) := by
  obtain ⟨c, u, rfl⟩ := List.exists_cons_of_length_pos (show 0 < t.length by omega)
  have hDigit : isAsciiDigit c := (List.all_eq_true.1 hDigits) c List.mem_cons_self
  unfold scalar
  split
  · next found hWord =>
      exfalso
      obtain ⟨entry, hEntry, hFound⟩ := List.exists_of_findSome?_eq_some hWord
      obtain ⟨rest, hRest, -⟩ := Option.map_eq_some_iff.1 hFound
      obtain ⟨d, word, hSpelled, hOther⟩ := exists_eq_cons_of_mem_words hEntry
      have hText := Text.eq_append_of_after?_eq_some hRest
      rw [hSpelled] at hText
      exact ne_of_isAsciiDigit hDigit hOther (List.cons.inj hText).1
  · split
    · next hMinus =>
        obtain rfl := (List.cons.inj hMinus).1
        exact absurd hDigit (by decide)
    · exact number_of_digits hDigits hHead hMany _ false

end

end Reader

/-- A row of too many digits is refused, unless it is a zero with digits behind it. -/
theorem read_of_digits {d : Dialect} {t : Text} (hDigits : t.all isAsciiDigit)
    (hHead : t.head? ≠ some '0') (hMany : Reading.digitLimit < t.length) :
    read d t = .error (.oversizedInteger t.length) := by
  obtain ⟨c, u, rfl⟩ := List.exists_cons_of_length_pos (show 0 < t.length by omega)
  have hDigit : isAsciiDigit c := (List.all_eq_true.1 hDigits) c List.mem_cons_self
  have hNe {d : Char} (hOther : isAsciiDigit d = false) : c ≠ d :=
    ne_of_isAsciiDigit hDigit hOther
  have hSpace : Reader.isSpace c = false := by
    simp [Reader.isSpace, hNe (d := ' ') rfl, hNe (d := '\t') rfl, hNe (d := '\n') rfl,
      hNe (d := '\r') rfl]
  have hStart : Reader.skipSpaces (c :: u) = c :: u :=
    List.dropWhile_cons_of_neg (by simp [hSpace])
  have hValue (fuel : Nat) : Reader.value d.admitBroken (fuel + 1) d.depth (c :: u) =
      .error (.oversizedInteger (c :: u).length) := by
    rw [Reader.value]
    · exact Reader.scalar_of_digits hDigits hHead hMany
    · rintro v hQuote
      exact hNe (d := '"') rfl (List.cons.inj hQuote).1
    · rintro v hBracket
      exact hNe (d := '[') rfl (List.cons.inj hBracket).1
    · rintro v hBrace
      exact hNe (d := '\x7b') rfl (List.cons.inj hBrace).1
  rw [read, if_neg, hStart, hValue]
  rintro hMark
  exact hNe (d := byteOrderMark) rfl (Option.some.inj hMark)

theorem value_replicate_bracket {admitBroken : Bool} {fuel depth n : Nat} (hFuel : 2 * depth < fuel)
    (hMany : depth < n) :
    Reader.value admitBroken fuel depth (List.replicate n '[') = .error (.tooDeep true) := by
  induction depth generalizing fuel n with
  | zero =>
      obtain ⟨fuel, rfl⟩ := Nat.exists_eq_add_of_lt hFuel
      obtain ⟨n, rfl⟩ := Nat.exists_eq_add_of_lt hMany
      rw [List.replicate_succ, Reader.value]
  | succ depth ih =>
      obtain ⟨fuel, rfl⟩ := Nat.exists_eq_add_of_le' (show 2 ≤ fuel by omega)
      obtain ⟨n, rfl⟩ := Nat.exists_eq_add_of_le' (show 2 ≤ n by omega)
      have hInside : Reader.items admitBroken (fuel + 1) depth (List.replicate (n + 1) '[') =
          .error (.tooDeep true) := by
        rw [Reader.items, ih (by omega) (by omega)]
      have hSpaces : Reader.skipSpaces (List.replicate (n + 1) '[') = List.replicate (n + 1) '[' :=
        List.dropWhile_cons_of_neg (by decide)
      rw [List.replicate_succ, Reader.value]
      simp only [hSpaces]
      split
      · exact absurd ‹_› (by simp [List.replicate_succ])
      · rw [hInside]
        rfl

/-- A row of opening brackets is refused when it is longer than arrays may be nested. -/
theorem read_replicate_bracket {d : Dialect} {n : Nat} (hMany : d.depth < n) :
    read d (List.replicate n '[') = .error (.tooDeep true) := by
  obtain ⟨n, rfl⟩ := Nat.exists_eq_add_of_lt hMany
  have hSpaces : Reader.skipSpaces (List.replicate (d.depth + n + 1) '[') =
      List.replicate (d.depth + n + 1) '[' :=
    List.dropWhile_cons_of_neg (by decide)
  rw [read, if_neg, hSpaces, value_replicate_bracket]
  · rw [List.length_replicate]
    omega
  · omega
  · simp [List.replicate_succ, byteOrderMark]

end Composer.Json
