import Composer.Text.Blank
import Mathlib.Data.List.TakeWhile

/-!
Cutting texts into pieces, trimming them, and finding beginnings. A text that is put together from
two is cut like the first, except that the last piece goes on into the second; this is what lets a
text arrive in parts.
-/

namespace Composer.Text

section
variable {p : Char → Bool}

theorem splitWhere_ne_nil (t : Text) : splitWhere p t ≠ [] := by
  cases t with
  | nil => simp [splitWhere]
  | cons c t =>
      unfold splitWhere
      split
      · simp
      · split <;> simp

theorem splitWhere_cons_of_pos {c : Char} (h : p c) (t : Text) :
    splitWhere p (c :: t) = [] :: splitWhere p t := by
  rw [splitWhere, if_pos h]

/-- A character that does not cut joins the first piece. -/
theorem splitWhere_cons_of_neg {c : Char} (h : p c = false) {t piece : Text} {pieces : List Text}
    (ht : splitWhere p t = piece :: pieces) :
    splitWhere p (c :: t) = (c :: piece) :: pieces := by
  rw [splitWhere, if_neg (by simp [h]), ht]

/-- A character that cuts stands between the pieces of two texts. -/
theorem splitWhere_append_of_pos (s : Text) {c : Char} (hc : p c) (t : Text) :
    splitWhere p (s ++ c :: t) = splitWhere p s ++ splitWhere p t := by
  induction s with
  | nil => exact splitWhere_cons_of_pos hc t
  | cons d s ih =>
      obtain ⟨first, rest, hSplit⟩ := List.exists_cons_of_ne_nil (splitWhere_ne_nil (p := p) s)
      rw [hSplit] at ih
      cases hd : p d with
      | true =>
          rw [List.cons_append, splitWhere_cons_of_pos hd, splitWhere_cons_of_pos hd, ih, hSplit]
          rfl
      | false =>
          rw [List.cons_append, splitWhere_cons_of_neg hd hSplit, splitWhere_cons_of_neg hd ih]
          rfl

/-- A text without cuts joins the first piece of the next. -/
theorem splitWhere_append_of_neg {s : Text} (hs : ∀ c ∈ s, p c = false) {t piece : Text}
    {pieces : List Text} (ht : splitWhere p t = piece :: pieces) :
    splitWhere p (s ++ t) = (s ++ piece) :: pieces := by
  induction s with
  | nil => exact ht
  | cons c s ih =>
      obtain ⟨hc, hRest⟩ := List.forall_mem_cons.1 hs
      exact splitWhere_cons_of_neg hc (ih hRest)

theorem splitWhere_eq_singleton {t : Text} (h : ∀ c ∈ t, p c = false) : splitWhere p t = [t] := by
  have hPieces : splitWhere p (t ++ []) = [t ++ []] := splitWhere_append_of_neg h rfl
  rwa [List.append_nil] at hPieces

theorem eq_false_of_mem_splitWhere {t piece : Text} (hPiece : piece ∈ splitWhere p t) :
    ∀ c ∈ piece, p c = false := by
  induction t generalizing piece with
  | nil =>
      rw [splitWhere, List.mem_singleton] at hPiece
      simp [hPiece]
  | cons d t ih =>
      cases hd : p d with
      | true =>
          rw [splitWhere_cons_of_pos hd] at hPiece
          rcases List.mem_cons.1 hPiece with rfl | hPiece
          · simp
          · exact ih hPiece
      | false =>
          obtain ⟨first, rest, hSplit⟩ := List.exists_cons_of_ne_nil (splitWhere_ne_nil t)
          rw [splitWhere_cons_of_neg hd hSplit] at hPiece
          rcases List.mem_cons.1 hPiece with rfl | hPiece
          · exact List.forall_mem_cons.2 ⟨hd, ih (hSplit ▸ List.mem_cons_self)⟩
          · exact ih (hSplit ▸ List.mem_cons_of_mem first hPiece)

/-- The last piece of the first text goes on into the second. -/
theorem splitWhere_append (s t : Text) :
    splitWhere p (s ++ t) =
      (splitWhere p s).dropLast ++ splitWhere p ((splitWhere p s).getLastD [] ++ t) := by
  induction s with
  | nil => rfl
  | cons c s ih =>
      obtain ⟨first, rest, hSplit⟩ := List.exists_cons_of_ne_nil (splitWhere_ne_nil (p := p) s)
      cases hc : p c with
      | true =>
          rw [List.cons_append, splitWhere_cons_of_pos hc, splitWhere_cons_of_pos hc, ih, hSplit]
          simp
      | false =>
          rw [hSplit] at ih
          rw [splitWhere_cons_of_neg hc hSplit]
          cases rest with
          | nil =>
              simp only [List.dropLast_singleton, List.nil_append, List.getLastD_cons,
                List.getLastD_nil] at ih ⊢
              obtain ⟨piece, pieces, hRest⟩ :=
                List.exists_cons_of_ne_nil (splitWhere_ne_nil (p := p) (first ++ t))
              rw [List.cons_append, splitWhere_cons_of_neg hc (ih.trans hRest), List.cons_append,
                splitWhere_cons_of_neg hc hRest]
          | cons second rest =>
              simp only [List.dropLast_cons_cons, List.cons_append, List.getLastD_cons] at ih ⊢
              rw [splitWhere_cons_of_neg hc ih]

theorem lines_eq_singleton {t : Text} (h : lineFeed ∉ t) : t.lines = [t] := by
  refine splitWhere_eq_singleton fun c hc => ?_
  rw [beq_eq_false_iff_ne]
  rintro rfl
  exact h hc

theorem lines_append_lineFeed (s t : Text) : (s ++ lineFeed :: t).lines = s.lines ++ t.lines :=
  splitWhere_append_of_pos s rfl t

theorem lines_append_cons {line : Text} (hLine : lineFeed ∉ line) (t : Text) :
    (line ++ lineFeed :: t).lines = line :: t.lines := by
  rw [lines_append_lineFeed, lines_eq_singleton hLine]
  rfl

/-- A needle is not found in a text that lacks its first character. -/
theorem cut?_eq_none {c : Char} {needle t : Text} (h : c ∉ t) : cut? (c :: needle) t = none := by
  induction t with
  | nil => rfl
  | cons d t ih =>
      obtain ⟨hHead, hTail⟩ := not_or.1 (mt List.mem_cons.2 h)
      simp [cut?, after?, hHead, ih hTail]

/-- A text is cut at a needle whose first character does not stand before it. -/
theorem cut?_append_of_not_mem {c : Char} {before : Text} (h : c ∉ before) (needle rest : Text) :
    cut? (c :: needle) (before ++ (c :: needle) ++ rest) = some (before, rest) := by
  induction before with
  | nil =>
      rw [List.nil_append, List.cons_append, cut?, ← List.cons_append, after?_append]
  | cons d before ih =>
      obtain ⟨hHead, hTail⟩ := not_or.1 (mt List.mem_cons.2 h)
      rw [List.cons_append, List.cons_append, cut?, after?, if_neg hHead]
      simp only
      rw [ih hTail]
      rfl

/-- A character that does not stand in the first part is where a text is cut. -/
theorem cut?_append_cons {c : Char} {before : Text} (h : c ∉ before) (rest : Text) :
    cut? [c] (before ++ c :: rest) = some (before, rest) := by
  rw [← cut?_append_of_not_mem h [] rest, List.append_assoc]
  rfl

theorem contains_singleton_iff (t : Text) (c : Char) : t.contains [c] ↔ c ∈ t := by
  rw [contains]
  induction t with
  | nil => simp [anywhere, startsWith, after?]
  | cons d t ih =>
      have hHead : startsWith (d :: t) [c] ↔ c = d := by simp [startsWith, after?]
      rw [anywhere, Bool.or_eq_true, hHead, ih, List.mem_cons]

theorem dropWhile_eq_self {t : Text} (hFirst : ∀ c ∈ t.head?, p c = false) :
    t.dropWhile p = t := by
  cases t with
  | nil => rfl
  | cons c t => rw [List.dropWhile_cons_of_neg (by simp [hFirst c rfl])]

section
variable {c : Char} (hc : p c = false)
include hc

theorem takeWhile_append_cons (t more : Text) :
    (t ++ c :: more).takeWhile p = t.takeWhile p := by
  induction t with
  | nil => simp [hc]
  | cons d t ih => simp only [List.cons_append, List.takeWhile_cons, ih]

theorem dropWhile_append_cons (t more : Text) :
    (t ++ c :: more).dropWhile p = t.dropWhile p ++ c :: more := by
  induction t with
  | nil => simp [hc]
  | cons d t ih =>
      simp only [List.cons_append, List.dropWhile_cons, ih]
      split <;> rfl

end

theorem trimEndWhere_eq_self {t : Text} (hLast : ∀ c ∈ t.getLast?, p c = false) :
    trimEndWhere p t = t := by
  have hReverse : ∀ c ∈ t.reverse.head?, p c = false := by
    rw [List.head?_reverse]
    exact hLast
  rw [trimEndWhere, dropWhile_eq_self hReverse, List.reverse_reverse]

/-- A text whose first and last characters are not trimmed stays as it is. -/
theorem trimWhere_eq_self {t : Text} (hFirst : ∀ c ∈ t.head?, p c = false)
    (hLast : ∀ c ∈ t.getLast?, p c = false) : trimWhere p t = t := by
  rw [trimWhere, dropWhile_eq_self hFirst]
  exact trimEndWhere_eq_self hLast

/-- What stands before a character that is not trimmed is not trimmed at the end either. -/
theorem trimEndWhere_append {s t : Text} (hLast : ∀ c ∈ s.getLast?, p c = false) :
    trimEndWhere p (s ++ t) = s ++ trimEndWhere p t := by
  have hReverse : ∀ c ∈ s.reverse.head?, p c = false := by
    rw [List.head?_reverse]
    exact hLast
  rw [trimEndWhere, trimEndWhere, List.reverse_append, List.dropWhile_append]
  split
  · next hEmpty =>
      rw [dropWhile_eq_self hReverse, List.reverse_reverse, List.isEmpty_iff.1 hEmpty]
      exact (List.append_nil s).symm
  · rw [List.reverse_append, List.reverse_reverse]

/-- What is trimmed goes from the two sides of what neither begins nor ends with any of it. -/
theorem trimWhere_append {t : Text} (hFilled : t ≠ []) (hFirst : ∀ c ∈ t.head?, p c = false)
    (hLast : ∀ c ∈ t.getLast?, p c = false) (before after : Text) :
    trimWhere p (before ++ t ++ after) = before.dropWhile p ++ t ++ trimEndWhere p after := by
  have hDropped : (before ++ t ++ after).dropWhile p = before.dropWhile p ++ t ++ after := by
    have hHead : ∀ c ∈ (t ++ after).head?, p c = false := by
      rwa [List.head?_append, Option.or_of_isSome (List.isSome_head?.2 hFilled)]
    rw [List.append_assoc, List.dropWhile_append]
    split
    · next hEmpty =>
        rw [dropWhile_eq_self hHead, List.isEmpty_iff.1 hEmpty]
        rfl
    · exact (List.append_assoc ..).symm
  have hEnd : ∀ c ∈ (before.dropWhile p ++ t).getLast?, p c = false := by
    rwa [List.getLast?_append, Option.or_of_isSome (List.getLast?_isSome.2 hFilled)]
  calc trimWhere p (before ++ t ++ after)
    _ = trimEndWhere p (before.dropWhile p ++ t ++ after) :=
      congrArg (trimEndWhere p) hDropped
    _ = before.dropWhile p ++ t ++ trimEndWhere p after := trimEndWhere_append hEnd

theorem exists_eq_trimEndWhere_append (t : Text) :
    ∃ rest, t = trimEndWhere p t ++ rest ∧ ∀ c ∈ rest, p c := by
  refine ⟨(t.reverse.takeWhile p).reverse, ?_, fun c hc => ?_⟩
  · rw [trimEndWhere, ← List.reverse_append, List.takeWhile_append_dropWhile, List.reverse_reverse]
  · exact List.mem_takeWhile_imp (List.mem_reverse.1 hc)

theorem trimWhere_eq_nil_iff (t : Text) : trimWhere p t = [] ↔ ∀ c ∈ t, p c := by
  have hTrimmed : trimWhere p t = [] ↔ ∀ c ∈ t.dropWhile p, p c := by
    rw [trimWhere, List.reverse_eq_nil_iff, List.dropWhile_eq_nil_iff]
    simp only [List.mem_reverse]
  rw [hTrimmed]
  constructor
  · intro h c hc
    rw [← List.takeWhile_append_dropWhile (p := p) (l := t)] at hc
    rcases List.mem_append.1 hc with hLead | hRest
    · exact List.mem_takeWhile_imp hLead
    · exact h c hRest
  · exact fun h c hc => h c ((List.dropWhile_sublist p).mem hc)

/-- All that is around a text is trimmed, and nothing more. -/
theorem trimWhere_of_padded {before t after : Text} (hBefore : ∀ c ∈ before, p c)
    (hAfter : ∀ c ∈ after, p c) (hFirst : ∀ c ∈ t.head?, p c = false)
    (hLast : ∀ c ∈ t.getLast?, p c = false) : trimWhere p (before ++ t ++ after) = t := by
  by_cases hNone : t = []
  · subst hNone
    rw [trimWhere_eq_nil_iff, List.append_nil]
    exact List.forall_mem_append.2 ⟨hBefore, hAfter⟩
  · have hEnd : trimEndWhere p after = [] := by
      rw [trimEndWhere, List.reverse_eq_nil_iff, List.dropWhile_eq_nil_iff]
      exact fun c hc => hAfter c (List.mem_reverse.1 hc)
    rw [trimWhere_append hNone hFirst hLast, List.dropWhile_eq_nil_iff.2 hBefore, hEnd]
    simp

end

theorem skipBlanks_append {t : Text} (h : t.skipBlanks ≠ []) (more : Text) :
    (t ++ more).skipBlanks = t.skipBlanks ++ more := by
  unfold skipBlanks at h ⊢
  rw [List.dropWhile_append, if_neg (by simpa only [List.isEmpty_iff] using h)]

/-- What has white space only is gone without it, and nothing else is. -/
theorem strip_eq_nil_iff (t : Text) : t.strip = [] ↔ t.isBlankText := by
  rw [strip, trimWhere_eq_nil_iff, isBlankText, List.all_eq_true]

theorem startsWith_iff (t lead : Text) : t.startsWith lead ↔ ∃ rest, t = lead ++ rest := by
  unfold startsWith
  constructor
  · intro h
    obtain ⟨rest, hRest⟩ := Option.isSome_iff_exists.1 h
    exact ⟨rest, eq_append_of_after?_eq_some hRest⟩
  · rintro ⟨rest, rfl⟩
    rw [after?_append]
    rfl

/-- What stands somewhere in a text is counted there. -/
theorem anywhere_iff_countWhere_pos {p : Text → Bool} (hNil : p [] = false) (t : Text) :
    anywhere p t ↔ 0 < countWhere p t := by
  induction t with
  | nil => simp [anywhere, countWhere, hNil]
  | cons c t ih =>
      simp only [anywhere, countWhere, Bool.or_eq_true, ih]
      cases p (c :: t) with
      | true => simp only [true_or, if_true, true_iff]; omega
      | false => simp

end Composer.Text
