import Composer.Proofs.Text.Joining

/-!
Texts with their line ends unified. The lines of a text stay the same, and so do the needles that
hold no line end; a text can be unified in parts, unless the cut goes through a pair of a carriage
return and a line feed.
-/

namespace Composer.Text

variable {s t needle : Text}

/-- A needle that holds neither of the line ends. -/
def OnLine (needle : Text) : Prop := '\r' ∉ needle ∧ lineFeed ∉ needle

theorem unifyLineEnds_cons {c : Char} (hc : c ≠ '\r') (t : Text) :
    unifyLineEnds (c :: t) = c :: unifyLineEnds t := by
  refine unifyLineEnds.eq_4 c t ?_ ?_
  · exact fun _ h _ => hc h
  · exact hc

theorem unifyLineEnds_pair (t : Text) :
    unifyLineEnds ('\r' :: lineFeed :: t) = lineFeed :: unifyLineEnds t := rfl

theorem unifyLineEnds_return (h : t.head? ≠ some lineFeed) :
    unifyLineEnds ('\r' :: t) = lineFeed :: unifyLineEnds t :=
  unifyLineEnds.eq_3 t fun u hu => h (by rw [hu]; rfl)

/-- Induction along the line ends of a text. -/
@[elab_as_elim]
theorem lineEnds_induction {motive : Text → Prop} (nil : motive [])
    (pair : ∀ t, motive t → motive ('\r' :: lineFeed :: t))
    (single : ∀ t, t.head? ≠ some lineFeed → motive t → motive ('\r' :: t))
    (cons : ∀ c t, c ≠ '\r' → motive t → motive (c :: t)) (t : Text) : motive t := by
  induction t using unifyLineEnds.induct with
  | case1 => exact nil
  | case2 t ih => exact pair t ih
  | case3 t hNoFeed ih =>
      refine single t (fun hHead => ?_) ih
      obtain ⟨u, rfl⟩ := List.head?_eq_some_iff.1 hHead
      exact hNoFeed u rfl
  | case4 c t _ hc ih => exact cons c t hc ih

theorem unifyLineEnds_append (h : s.getLast? = some '\r' → t.head? ≠ some lineFeed) :
    unifyLineEnds (s ++ t) = unifyLineEnds s ++ unifyLineEnds t := by
  -- the end of a rest is the end of the whole
  have hRest {c : Char} {rest : Text} (h : (c :: rest).getLast? = some '\r' →
      t.head? ≠ some lineFeed) (hLast : rest.getLast? = some '\r') : t.head? ≠ some lineFeed := by
    obtain ⟨lead, rfl⟩ := List.getLast?_eq_some_iff.1 hLast
    exact h (by rw [← List.cons_append, List.getLast?_concat])
  induction s using lineEnds_induction with
  | nil => rfl
  | pair s ih =>
      rw [List.cons_append, List.cons_append, unifyLineEnds_pair, unifyLineEnds_pair,
        ih (hRest (hRest h))]
      rfl
  | single s hNoFeed ih =>
      have hBoth : (s ++ t).head? ≠ some lineFeed := by
        cases s with
        | nil => exact h rfl
        | cons c s => exact hNoFeed
      rw [List.cons_append, unifyLineEnds_return hBoth, unifyLineEnds_return hNoFeed,
        ih (hRest h)]
      rfl
  | cons c s hc ih =>
      rw [List.cons_append, unifyLineEnds_cons hc, unifyLineEnds_cons hc, ih (hRest h)]
      rfl

theorem unifyLineEnds_eq_self (h : '\r' ∉ t) : unifyLineEnds t = t := by
  induction t with
  | nil => rfl
  | cons c t ih =>
      rw [List.mem_cons, not_or] at h
      rw [unifyLineEnds_cons (Ne.symm h.1), ih h.2]

/-- Every line end still ends a line. -/
theorem allLines_unifyLineEnds (t : Text) : allLines (unifyLineEnds t) = allLines t := by
  have hFeed (u : Text) : allLines (lineFeed :: u) = [] :: allLines u :=
    allLines_cons_of_boundary rfl fun _ h => absurd h (by decide)
  induction t using lineEnds_induction with
  | nil => rfl
  | pair t ih => rw [unifyLineEnds_pair, hFeed, ih, allLines.eq_2]
  | single t hNoFeed ih =>
      have hAlone (u : Text) (_ : '\r' = '\r') (hu : t = lineFeed :: u) : False :=
        hNoFeed (by rw [hu]; rfl)
      rw [unifyLineEnds_return hNoFeed, hFeed, ih, allLines_cons_of_boundary rfl hAlone]
  | cons c t hc ih =>
      rw [unifyLineEnds_cons hc]
      cases hBoundary : isLineBoundary c with
      | true =>
          rw [allLines_cons_of_boundary hBoundary fun _ h => absurd h hc,
            allLines_cons_of_boundary hBoundary fun _ h => absurd h hc, ih]
      | false =>
          rcases eq_or_ne t [] with rfl | hFilled
          · rfl
          · have hUnified : unifyLineEnds t ≠ [] := by
              intro hEmpty
              rw [hEmpty] at ih
              exact allLines_ne_nil hFilled ih.symm
            rw [allLines_cons_of_not_boundary hBoundary hUnified,
              allLines_cons_of_not_boundary hBoundary hFilled, ih]

theorem prefix_unifyLineEnds_iff (hNeedle : needle.OnLine) :
    needle <+: unifyLineEnds t ↔ needle <+: t := by
  induction needle generalizing t with
  | nil => simp
  | cons l needle ih =>
      obtain ⟨hReturn, hFeed⟩ := hNeedle
      rw [List.mem_cons, not_or] at hReturn hFeed
      cases t with
      | nil => rfl
      | cons c t =>
          by_cases hc : c = '\r'
          · subst hc
            obtain ⟨rest, hRest⟩ : ∃ rest, unifyLineEnds ('\r' :: t) = lineFeed :: rest := by
              by_cases hPair : t.head? = some lineFeed
              · obtain ⟨u, rfl⟩ := List.head?_eq_some_iff.1 hPair
                exact ⟨_, unifyLineEnds_pair u⟩
              · exact ⟨_, unifyLineEnds_return hPair⟩
            rw [hRest, List.cons_prefix_cons, List.cons_prefix_cons]
            simp [Ne.symm hReturn.1, Ne.symm hFeed.1]
          · rw [unifyLineEnds_cons hc, List.cons_prefix_cons, List.cons_prefix_cons,
              ih ⟨hReturn.2, hFeed.2⟩]

theorem infix_unifyLineEnds_iff (hNeedle : needle.OnLine) (hFilled : needle ≠ []) :
    needle <:+: unifyLineEnds t ↔ needle <:+: t := by
  have hPass {end_ : Char} (hEnd : end_ ∉ needle) (u : Text) :
      needle <:+: end_ :: u ↔ needle <:+: u := by
    rw [← List.nil_append (end_ :: u), infix_append_cons_iff hEnd, List.infix_nil]
    exact or_iff_right hFilled
  induction t using lineEnds_induction with
  | nil => rfl
  | pair t ih =>
      rw [unifyLineEnds_pair]
      have hUnified := (hPass hNeedle.2 _).trans ih
      exact hUnified.trans ((hPass hNeedle.1 _).trans (hPass hNeedle.2 t)).symm
  | single t hNoFeed ih =>
      rw [unifyLineEnds_return hNoFeed]
      exact ((hPass hNeedle.2 _).trans ih).trans (hPass hNeedle.1 t).symm
  | cons c t hc ih =>
      rw [unifyLineEnds_cons hc, List.infix_cons_iff, List.infix_cons_iff, ← unifyLineEnds_cons hc,
        prefix_unifyLineEnds_iff hNeedle]
      exact or_congr_right ih

/-- A text without white space at its ends has none when its line ends are unified. -/
theorem strip_unifyLineEnds_strip (t : Text) :
    (unifyLineEnds t.strip).strip = unifyLineEnds t.strip := by
  have hReturn : isBlank '\r' := by decide
  have hFeed : isBlank lineFeed := by decide
  refine trimWhere_eq_self ?_ ?_
  · have hHead := head?_strip t
    cases hStrip : t.strip with
    | nil => simp [unifyLineEnds]
    | cons c u =>
        rw [hStrip] at hHead
        have hc : isBlank c = false := hHead c rfl
        have hNe : c ≠ '\r' := by rintro rfl; exact absurd hReturn (by simp [hc])
        rw [unifyLineEnds_cons hNe]
        rintro d ⟨⟩
        exact hc
  · have hLast := getLast?_strip t
    rcases List.eq_nil_or_concat t.strip with hStrip | ⟨lead, c, hStrip⟩
    · simp [hStrip, unifyLineEnds]
    · rw [List.concat_eq_append] at hStrip
      rw [hStrip, List.getLast?_concat] at hLast
      have hc : isBlank c = false := hLast c rfl
      have hNe : c ≠ '\r' := by rintro rfl; exact absurd hReturn (by simp [hc])
      have hNoFeed : [c].head? ≠ some lineFeed := by
        intro h
        obtain rfl : c = lineFeed := Option.some.inj h
        exact absurd hFeed (by simp [hc])
      rw [hStrip, unifyLineEnds_append fun _ => hNoFeed, unifyLineEnds_cons hNe]
      intro d hd
      rw [unifyLineEnds, List.getLast?_concat] at hd
      exact Option.some.inj hd ▸ hc

end Composer.Text
