import Composer.Code.Measure
import Composer.Proofs.Text.Joining

/-!
How calls are spelled, and what is found when all of them are looked for. A call is a name, white
space and an opening parenthesis. The search goes on behind what was found, so what it finds does
not depend on the bound that it is given (`Call.findAll_cons`), and up to the first place where
something is recognised it finds nothing (`Call.findAll_append`).
-/

namespace Composer.Call

open Text

/-! ### Names and parentheses -/

theorem opening?_eq_some_iff (t rest : Text) :
    opening? t = some rest ↔ ∃ gap : Text, (∀ c ∈ gap, isBlank c) ∧ t = gap ++ '(' :: rest := by
  unfold opening?
  constructor
  · intro h
    refine ⟨t.takeWhile isBlank, fun c hc => List.mem_takeWhile_imp hc, ?_⟩
    have hRest : t.skipBlanks = '(' :: rest := eq_append_of_after?_eq_some h
    rw [← hRest]
    exact List.takeWhile_append_dropWhile.symm
  · rintro ⟨gap, hGap, rfl⟩
    rw [skipBlanks, List.dropWhile_append_of_pos hGap]
    rfl

/-- A call is spelled by its name, white space and an opening parenthesis. -/
theorem named?_eq_some_iff (name t rest : Text) :
    named? name t = some rest ↔
      ∃ gap : Text, (∀ c ∈ gap, isBlank c) ∧ t = name ++ gap ++ '(' :: rest := by
  simp only [named?, Option.bind_eq_some_iff, opening?_eq_some_iff]
  constructor
  · rintro ⟨u, hName, gap, hGap, rfl⟩
    exact ⟨gap, hGap, by rw [eq_append_of_after?_eq_some hName, List.append_assoc]⟩
  · rintro ⟨gap, hGap, rfl⟩
    exact ⟨gap ++ '(' :: rest, by rw [List.append_assoc, after?_append], gap, hGap, rfl⟩

/-- A method is called only at a point. -/
theorem method?_eq_none {name t : Text} (h : '.' ∉ t) : method? name t = none := by
  cases hFound : method? name t with
  | none => rfl
  | some rest =>
      obtain ⟨gap, -, rfl⟩ := (named?_eq_some_iff _ t rest).1 hFound
      exact absurd (by simp) h

/-! ### All calls -/

/-- A recogniser that takes up at least one character. -/
def Shrinks {α : Type} (recognise : Text → Option (α × Text)) : Prop :=
  ∀ ⦃t : Text⦄ ⦃found : α⦄ ⦃rest : Text⦄, recognise t = some (found, rest) →
    rest.length < t.length

section
variable {α : Type} {recognise : Text → Option (α × Text)} (hShrinks : Shrinks recognise)
include hShrinks

/-- Any bound that leaves room for all characters leads to the same calls. -/
theorem findAllWith_eq (fuel more : Nat) (t : Text) (hFuel : t.length ≤ fuel)
    (hMore : t.length ≤ more) :
    findAllWith recognise fuel t = findAllWith recognise more t := by
  induction fuel generalizing more t with
  | zero =>
      obtain rfl := List.eq_nil_of_length_eq_zero (Nat.le_zero.1 hFuel)
      cases more <;> rfl
  | succ fuel ih =>
      cases t with
      | nil => cases more <;> rfl
      | cons c t =>
          cases more with
          | zero => exact absurd hMore (Nat.not_succ_le_zero _)
          | succ more =>
              simp only [findAllWith]
              cases hFound : recognise (c :: t) with
              | none => exact ih more t (Nat.le_of_succ_le_succ hFuel) (Nat.le_of_succ_le_succ hMore)
              | some next =>
                  have hRest := hShrinks hFound
                  simp only [List.length_cons] at hRest hFuel hMore
                  exact congrArg (next.1 :: ·) (ih more next.2 (by omega) (by omega))

theorem findAll_cons (c : Char) (t : Text) :
    findAll recognise (c :: t) =
      match recognise (c :: t) with
      | some (found, rest) => found :: findAll recognise rest
      | none => findAll recognise t := by
  rw [findAll, List.length_cons, findAllWith]
  cases hFound : recognise (c :: t) with
  | none => rfl
  | some next =>
      have hRest := Nat.le_of_lt_succ (hShrinks hFound)
      exact congrArg (next.1 :: ·) (findAllWith_eq hShrinks _ _ next.2 hRest (Nat.le_refl _))

/-- Up to the first place where something is recognised nothing is found. -/
theorem findAll_append {lead t : Text}
    (h : ∀ u, u <:+ lead → u ≠ [] → recognise (u ++ t) = none) :
    findAll recognise (lead ++ t) = findAll recognise t := by
  induction lead with
  | nil => rfl
  | cons c lead ih =>
      rw [List.cons_append, findAll_cons hShrinks, ← List.cons_append,
        h (c :: lead) List.suffix_rfl (List.cons_ne_nil c lead)]
      exact ih fun u hu => h u (hu.trans (List.suffix_cons c lead))

theorem findAll_eq_nil {t : Text} (h : ∀ u, u <:+ t → u ≠ [] → recognise u = none) :
    findAll recognise t = [] := by
  have hNone : findAll recognise (t ++ []) = findAll recognise [] :=
    findAll_append hShrinks (by simpa only [List.append_nil])
  rwa [List.append_nil] at hNone

/-- A search that comes upon one call only finds that. -/
theorem findAll_eq_singleton {before call rest : Text} {found : α}
    (hCall : recognise call = some (found, rest)) (hRest : rest <:+ call)
    (hSingle : ∀ u, u <:+ before ++ call → (recognise u).isSome → u = call) :
    findAll recognise (before ++ call) = [found] := by
  have hLess := hShrinks hCall
  have hFirst : findAll recognise (before ++ call) = findAll recognise call := by
    refine findAll_append hShrinks fun u hu hFilled => ?_
    rw [← Option.not_isSome_iff_eq_none]
    intro hSome
    have hSame := hSingle (u ++ call) (List.suffix_append_self_iff.2 hu) hSome
    exact hFilled (List.append_left_eq_self.1 hSame)
  have hLater : findAll recognise rest = [] := by
    refine findAll_eq_nil hShrinks fun u hu _ => ?_
    rw [← Option.not_isSome_iff_eq_none]
    intro hSome
    have hSame := hSingle u ((hu.trans hRest).trans (List.suffix_append before call)) hSome
    exact absurd hu.length_le (hSame ▸ Nat.not_le.2 hLess)
  cases call with
  | nil => exact absurd hLess (Nat.not_lt_zero _)
  | cons c call =>
      rw [hFirst, findAll_cons hShrinks, hCall]
      exact congrArg (found :: ·) hLater

end

/-! ### Numbers and strings -/

/-- A whole number. -/
theorem decimal?_of_whole {t : Text} (hPoint : ∀ u, t.dropWhile isDecimalDigit ≠ '.' :: u) :
    decimal? t =
      if t.takeWhile isDecimalDigit = [] then none
      else some (.ofDecimal false (digitsValue (t.takeWhile isDecimalDigit)) 0,
        t.dropWhile isDecimalDigit) := by
  unfold decimal?
  split
  · next u hu => exact absurd hu (hPoint u)
  · rfl

/-- A number with a point. -/
theorem decimal?_of_point {t rest : Text} (hRest : t.dropWhile isDecimalDigit = '.' :: rest) :
    decimal? t =
      if t.takeWhile isDecimalDigit = [] ∧ rest.takeWhile isDecimalDigit = [] then none
      else some (.ofDecimal false
          (digitsValue (t.takeWhile isDecimalDigit ++ rest.takeWhile isDecimalDigit))
          (-((rest.takeWhile isDecimalDigit).length : Int)), rest.dropWhile isDecimalDigit) := by
  unfold decimal?
  rw [hRest]
  rfl

/-- A call on a string, spelled out up to the mark that closes the string. -/
def onString (name gap space text : Text) : Text :=
  name ++ gap ++ '(' :: space ++ '"' :: text ++ ['"']

theorem noteWithString?_eq_some_iff (t text rest : Text) :
    noteWithString? t = some (text, rest) ↔
      ∃ gap space : Text, (∀ c ∈ gap, isBlank c) ∧ (∀ c ∈ space, isBlank c) ∧ '"' ∉ text ∧
        t = onString "note" gap space text ++ rest := by
  unfold noteWithString?
  simp only [Option.bind_eq_some_iff, named?_eq_some_iff]
  constructor
  · rintro ⟨v, ⟨u, ⟨gap, hGap, rfl⟩, hMark⟩, hCut⟩
    have hText : '"' ∉ text := by
      have hFirst := not_infix_of_cut?_eq_some (List.cons_ne_nil _ _) hCut
      rw [← contains_iff_infix, contains_singleton_iff] at hFirst
      exact fun hMem => hFirst (List.mem_append_left _ hMem)
    refine ⟨gap, u.takeWhile isBlank, hGap, fun c hc => List.mem_takeWhile_imp hc, hText, ?_⟩
    have hSpace : u = u.takeWhile isBlank ++ '"' :: v := by
      have hRest : u.skipBlanks = '"' :: v := eq_append_of_after?_eq_some hMark
      rw [← hRest]
      exact List.takeWhile_append_dropWhile.symm
    calc "note" ++ gap ++ '(' :: u
      _ = "note" ++ gap ++ '(' :: (u.takeWhile isBlank ++ '"' :: v) := by rw [← hSpace]
      _ = onString "note" gap (u.takeWhile isBlank) text ++ rest := by
        rw [eq_append_of_cut?_eq_some hCut]
        simp [onString]
  · rintro ⟨gap, space, hGap, hSpace, hText, rfl⟩
    refine ⟨text ++ '"' :: rest, ⟨space ++ '"' :: text ++ '"' :: rest, ⟨gap, hGap, ?_⟩, ?_⟩, ?_⟩
    · simp [onString]
    · rw [List.append_assoc, skipBlanks, List.dropWhile_append_of_pos hSpace]
      rfl
    · exact cut?_append_cons hText rest

theorem count_onString {name gap space text : Text} (hName : '"' ∉ name)
    (hGap : ∀ c ∈ gap, isBlank c) (hSpace : ∀ c ∈ space, isBlank c) (hText : '"' ∉ text) :
    (onString name gap space text).count '"' = 2 := by
  have hNone {blanks : Text} (hBlank : ∀ c ∈ blanks, isBlank c) : blanks.count '"' = 0 :=
    List.count_eq_zero.2 fun h => absurd (hBlank '"' h) (by decide)
  simp [onString, List.count_eq_zero.2 hName, hNone hGap, hNone hSpace,
    List.count_eq_zero.2 hText]

end Composer.Call
