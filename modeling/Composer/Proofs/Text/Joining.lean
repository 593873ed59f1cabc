import Composer.Proofs.Text.Cutting

/-!
Texts that are put together of pieces, with a separator between them: which needles stand in them,
where they are cut first, and what their lines are. A needle that does not hold the separator stands
within one piece; a line that holds no line boundary is read back as it is.
-/

namespace Composer.Text

/-! ### Needles -/

theorem contains_iff_infix (t needle : Text) : t.contains needle ↔ needle <:+: t := by
  rw [contains]
  induction t with
  | nil =>
      rw [anywhere, startsWith_iff, List.infix_nil]
      simp [eq_comm]
  | cons c t ih =>
      rw [anywhere, Bool.or_eq_true, ih, startsWith_iff, List.infix_cons_iff]
      simp only [List.IsPrefix, eq_comm]

theorem not_infix_of_contains_eq_false {t needle : Text} (h : t.contains needle = false) :
    ¬needle <:+: t := by
  rw [← contains_iff_infix, h]
  exact Bool.false_ne_true

/-- What is true wherever `lead` begins is true somewhere in a text that has `lead`. -/
theorem anywhere_of_infix {p : Text → Bool} {lead t : Text} (hLead : ∀ rest, p (lead ++ rest))
    (h : lead <:+: t) : anywhere p t := by
  obtain ⟨before, after, rfl⟩ := h
  have hHere := hLead after
  rw [List.append_assoc]
  generalize lead ++ after = rest at hHere
  induction before with
  | nil => cases rest <;> simp [anywhere, hHere]
  | cons c before ih => rw [List.cons_append, anywhere, ih, Bool.or_true]

theorem after?_eq_none_iff (lead t : Text) : after? lead t = none ↔ ¬lead <+: t := by
  have hSome : (after? lead t).isSome ↔ lead <+: t :=
    (startsWith_iff t lead).trans (by simp only [List.IsPrefix, eq_comm])
  rw [← hSome, Option.not_isSome_iff_eq_none]

/-- A beginning that lacks a character is there or not before a text goes on with that character. -/
theorem after?_append_cons {lead : Text} {c : Char} (hc : c ∉ lead) (t more : Text) :
    after? lead (t ++ c :: more) = (after? lead t).map (· ++ c :: more) := by
  induction lead generalizing t with
  | nil => rfl
  | cons l lead ih =>
      obtain ⟨hHead, hTail⟩ := not_or.1 (mt List.mem_cons.2 hc)
      cases t with
      | nil => simp [after?, Ne.symm hHead]
      | cons d t =>
          simp only [List.cons_append, after?]
          split
          · exact ih hTail t
          · rfl

theorem not_infix_dropLast {needle : Text} (hFilled : needle ≠ []) :
    ¬needle <:+: needle.dropLast := by
  intro hShort
  have hLength := List.length_pos_iff.2 hFilled
  have hFits := hShort.length_le
  rw [List.length_dropLast] at hFits
  omega

theorem append_dropLast_prefix (before needle rest : Text) :
    before ++ needle.dropLast <+: before ++ needle ++ rest := by
  rw [List.append_assoc, List.prefix_append_right_inj]
  exact (List.dropLast_prefix needle).trans (List.prefix_append needle rest)

section
variable {needle : Text}

theorem cut?_eq_none_iff (t : Text) : cut? needle t = none ↔ ¬needle <:+: t := by
  induction t with
  | nil => simp [cut?]
  | cons c t ih =>
      rw [List.infix_cons_iff, not_or, ← ih, ← after?_eq_none_iff]
      cases hAfter : after? needle (c :: t) with
      | none => simp [cut?, hAfter]
      | some rest => simp [cut?, hAfter]

/-- No place before the one where a text is cut has the needle, not even one that shares characters
with it. -/
theorem not_infix_of_cut?_eq_some (hFilled : needle ≠ []) {t before rest : Text}
    (h : cut? needle t = some (before, rest)) : ¬needle <:+: before ++ needle.dropLast := by
  induction t generalizing before with
  | nil => simp [cut?, hFilled] at h
  | cons c t ih =>
      rw [cut?] at h
      cases hAfter : after? needle (c :: t) with
      | some more =>
          rw [hAfter] at h
          obtain ⟨rfl, -⟩ := Prod.mk.inj (Option.some.inj h)
          exact not_infix_dropLast hFilled
      | none =>
          rw [hAfter] at h
          obtain ⟨⟨first, more⟩, hCut, hPair⟩ := Option.map_eq_some_iff.1 h
          obtain ⟨rfl, rfl⟩ := Prod.mk.inj hPair
          have hStart : c :: (first ++ needle.dropLast) <+: c :: t :=
            List.cons_prefix_cons.2
              ⟨rfl, eq_append_of_cut?_eq_some hCut ▸ append_dropLast_prefix ..⟩
          rw [List.cons_append, List.infix_cons_iff]
          exact not_or.2
            ⟨fun hPrefix => (after?_eq_none_iff _ _).1 hAfter (hPrefix.trans hStart), ih hCut⟩

theorem not_prefix_append {before : Text} (hBefore : before ≠ [])
    (hFirst : ¬needle <:+: before ++ needle.dropLast) (rest : Text) :
    ¬needle <+: before ++ needle ++ rest := by
  intro hPrefix
  have hStart := append_dropLast_prefix before needle rest
  have hLength := List.length_pos_iff.2 hBefore
  refine hFirst (List.prefix_of_prefix_length_le hPrefix hStart ?_).isInfix
  rw [List.length_append, List.length_dropLast]
  omega

/-- A text is cut where it has the needle, if no place before that has it. -/
theorem cut?_append (hFilled : needle ≠ []) {before : Text}
    (hFirst : ¬needle <:+: before ++ needle.dropLast) (rest : Text) :
    cut? needle (before ++ needle ++ rest) = some (before, rest) := by
  induction before with
  | nil =>
      obtain ⟨c, tail, rfl⟩ := List.exists_cons_of_ne_nil hFilled
      rw [List.nil_append, List.cons_append, cut?, ← List.cons_append, after?_append]
  | cons c before ih =>
      have hNone : after? needle (c :: (before ++ needle ++ rest)) = none :=
        (after?_eq_none_iff _ _).2 (not_prefix_append (List.cons_ne_nil c before) hFirst rest)
      rw [List.cons_append, List.cons_append, cut?, hNone,
        ih fun hInfix => hFirst (List.infix_cons hInfix)]
      rfl

end

section
variable {needle : Text} {sep : Char}

/-- A needle without the separator stands on one side of it. -/
theorem infix_append_cons_iff (hSep : sep ∉ needle) (s t : Text) :
    needle <:+: s ++ sep :: t ↔ needle <:+: s ∨ needle <:+: t := by
  -- what goes over the separator would hold it
  have hNotPrefix {u : Text} (hu : ∀ c ∈ u, c ∈ needle) (h : u <+: sep :: t) : u = [] := by
    rcases List.prefix_cons_iff.1 h with rfl | ⟨rest, rfl, -⟩
    · rfl
    · exact absurd (hu sep List.mem_cons_self) hSep
  rw [List.infix_append_iff_ne_nil, List.infix_cons_iff]
  constructor
  · rintro (h | (h | h) | ⟨first, second, -, hSecond, rfl, -, h⟩)
    · exact .inl h
    · exact .inl (hNotPrefix (fun _ hc => hc) h ▸ List.nil_infix)
    · exact .inr h
    · exact absurd (hNotPrefix (fun _ hc => List.mem_append_right first hc) h) hSecond
  · rintro (h | h)
    · exact .inl h
    · exact .inr (.inl (.inr h))

/-- A text is cut where the needle follows a separator, if it does not stand before that. -/
theorem cut?_append_sep (hSep : sep ∉ needle) {before : Text} (hBefore : ¬needle <:+: before)
    (rest : Text) :
    cut? needle (before ++ sep :: (needle ++ rest)) = some (before ++ [sep], rest) := by
  have hFilled : needle ≠ [] := by
    rintro rfl
    exact hBefore List.nil_infix
  have hText : before ++ sep :: (needle ++ rest) = before ++ [sep] ++ needle ++ rest := by simp
  rw [hText, cut?_append hFilled]
  rw [List.append_assoc, List.singleton_append, infix_append_cons_iff hSep]
  exact not_or.2 ⟨hBefore, not_infix_dropLast hFilled⟩

end

section
variable {needle : Text} (hFilled : needle ≠ [])
include hFilled

/-- What comes before a cut and has nothing of the needle stays before it. -/
theorem cut?_append_left {lead : Text} (hLead : ∀ c ∈ lead, c ∉ needle) (t : Text) :
    cut? needle (lead ++ t) = (cut? needle t).map fun (before, rest) => (lead ++ before, rest) := by
  induction lead with
  | nil => simp
  | cons c lead ih =>
      obtain ⟨hc, hRest⟩ := List.forall_mem_cons.1 hLead
      have hNone : after? needle (c :: (lead ++ t)) = none := by
        rw [after?_eq_none_iff]
        intro hPrefix
        rcases List.prefix_cons_iff.1 hPrefix with rfl | ⟨rest, rfl, -⟩
        · exact hFilled rfl
        · exact hc List.mem_cons_self
      simp only [List.cons_append, cut?, hNone, ih hRest, Option.map_map]
      rfl

/-- A text is cut where its beginning is, if that is cut at all. -/
theorem cut?_append_of_eq_some {t before rest : Text} (h : cut? needle t = some (before, rest))
    (more : Text) : cut? needle (t ++ more) = some (before, rest ++ more) := by
  rw [eq_append_of_cut?_eq_some h, List.append_assoc]
  exact cut?_append hFilled (not_infix_of_cut?_eq_some hFilled h) _

/-- What comes after a text and has nothing of the needle stays behind the cut. -/
theorem cut?_append_right {more : Text} (hMore : ∀ c ∈ more, c ∉ needle) (t : Text) :
    cut? needle (t ++ more) = (cut? needle t).map fun (before, rest) => (before, rest ++ more) := by
  cases hCut : cut? needle t with
  | some cut => exact cut?_append_of_eq_some hFilled hCut more
  | none =>
      rw [cut?_eq_none_iff] at hCut
      rw [Option.map_none, cut?_eq_none_iff]
      cases more with
      | nil => rwa [List.append_nil]
      | cons c more =>
          obtain ⟨hc, hRest⟩ := List.forall_mem_cons.1 hMore
          rw [infix_append_cons_iff hc]
          rintro (h | h)
          · exact hCut h
          · obtain ⟨d, needle, rfl⟩ := List.exists_cons_of_ne_nil hFilled
            exact hRest d (h.subset List.mem_cons_self) List.mem_cons_self

end

/-! ### Pieces -/

theorem joinWith_cons (sep piece : Text) {pieces : List Text} (hMore : pieces ≠ []) :
    joinWith sep (piece :: pieces) = piece ++ sep ++ joinWith sep pieces :=
  joinWith.eq_3 sep piece pieces hMore

/-- Pieces that follow others are separated from them once. -/
theorem joinWith_append (sep : Text) {first second : List Text} (hFirst : first ≠ [])
    (hSecond : second ≠ []) :
    joinWith sep (first ++ second) = joinWith sep first ++ sep ++ joinWith sep second := by
  induction first with
  | nil => exact absurd rfl hFirst
  | cons piece first ih =>
      cases first with
      | nil => exact joinWith_cons sep piece hSecond
      | cons next first =>
          have hMore : next :: first ≠ [] := List.cons_ne_nil next first
          calc joinWith sep (piece :: (next :: first ++ second))
            _ = piece ++ sep ++ joinWith sep (next :: first ++ second) :=
              joinWith_cons sep piece (List.append_ne_nil_of_left_ne_nil hMore second)
            _ = piece ++ sep ++ (joinWith sep (next :: first) ++ sep ++ joinWith sep second) := by
              rw [ih hMore]
            _ = piece ++ sep ++ joinWith sep (next :: first) ++ sep ++ joinWith sep second := by
              simp only [List.append_assoc]
            _ = joinWith sep (piece :: next :: first) ++ sep ++ joinWith sep second := by
              rw [joinWith_cons sep piece hMore]

/-! ### Lines -/

/-- The first piece stands at the beginning of a text, and the others in it. -/
theorem exists_splitWhere_eq {p : Char → Bool} (t : Text) :
    ∃ first rest, splitWhere p t = first :: rest ∧ first <+: t ∧ ∀ piece ∈ rest, piece <:+: t := by
  induction t with
  | nil => exact ⟨[], [], rfl, List.prefix_rfl, by simp⟩
  | cons c t ih =>
      obtain ⟨first, rest, hSplit, hFirst, hRest⟩ := ih
      cases hc : p c with
      | true =>
          refine ⟨[], first :: rest, ?_, List.nil_prefix, List.forall_mem_cons.2 ⟨?_, ?_⟩⟩
          · rw [splitWhere_cons_of_pos hc, hSplit]
          · exact List.infix_cons hFirst.isInfix
          · exact fun piece hPiece => List.infix_cons (hRest piece hPiece)
      | false =>
          refine ⟨c :: first, rest, splitWhere_cons_of_neg hc hSplit, ?_, ?_⟩
          · exact List.cons_prefix_cons.2 ⟨rfl, hFirst⟩
          · exact fun piece hPiece => List.infix_cons (hRest piece hPiece)

theorem infix_of_mem_lines {t line : Text} (h : line ∈ t.lines) : line <:+: t := by
  obtain ⟨first, rest, hSplit, hFirst, hRest⟩ := exists_splitWhere_eq (p := (· == lineFeed)) t
  rw [lines, hSplit] at h
  rcases List.mem_cons.1 h with rfl | hLater
  · exact hFirst.isInfix
  · exact hRest line hLater

theorem unlines_cons_cons (line next : Text) (lines : List Text) :
    unlines (line :: next :: lines) = line ++ lineFeed :: unlines (next :: lines) := by
  rw [unlines, joinWith_cons _ _ (List.cons_ne_nil next lines), List.append_assoc]
  rfl

/-- Lines that are joined are the lines of what they make up. -/
theorem lines_unlines {lines : List Text} (hFilled : lines ≠ [])
    (h : ∀ line ∈ lines, lineFeed ∉ line) : (unlines lines).lines = lines := by
  induction lines with
  | nil => exact absurd rfl hFilled
  | cons line lines ih =>
      obtain ⟨hLine, hLines⟩ := List.forall_mem_cons.1 h
      cases lines with
      | nil => exact lines_eq_singleton hLine
      | cons next lines =>
          rw [unlines_cons_cons, lines_append_cons hLine, ih (List.cons_ne_nil next lines) hLines]

theorem unlines_append {first second : List Text} (hFirst : first ≠ []) (hSecond : second ≠ []) :
    unlines (first ++ second) = unlines first ++ lineFeed :: unlines second := by
  rw [unlines, joinWith_append _ hFirst hSecond, List.append_assoc]
  rfl

/-- Lines that follow each other are a part of the text. -/
theorem unlines_infix (first : List Text) {middle : List Text} (hMiddle : middle ≠ [])
    (last : List Text) : unlines middle <:+: unlines (first ++ (middle ++ last)) := by
  have hPrefix : unlines middle <+: unlines (middle ++ last) := by
    cases last with
    | nil => simp
    | cons line last =>
        rw [unlines_append hMiddle (List.cons_ne_nil line last)]
        exact List.prefix_append ..
  cases first with
  | nil => exact hPrefix.isInfix
  | cons line first =>
      rw [unlines_append (List.cons_ne_nil line first)
        (List.append_ne_nil_of_left_ne_nil hMiddle _)]
      have hSuffix : unlines (middle ++ last) <:+
          unlines (line :: first) ++ lineFeed :: unlines (middle ++ last) :=
        (List.suffix_cons ..).trans (List.suffix_append ..)
      exact hPrefix.isInfix.trans hSuffix.isInfix

theorem suffix_unlines_concat (lines : List Text) (line : Text) :
    line <:+ unlines (lines ++ [line]) := by
  cases lines with
  | nil => exact List.suffix_rfl
  | cons first lines =>
      rw [unlines_append (List.cons_ne_nil first lines) (List.cons_ne_nil line [])]
      exact (List.suffix_cons ..).trans (List.suffix_append ..)

/-- A needle without line feeds stands on one line. -/
theorem infix_unlines_iff {needle : Text} (hFeed : lineFeed ∉ needle) (hFilled : needle ≠ [])
    (lines : List Text) : needle <:+: unlines lines ↔ ∃ line ∈ lines, needle <:+: line := by
  induction lines with
  | nil => simpa [unlines, joinWith] using hFilled
  | cons line lines ih =>
      cases lines with
      | nil => simp [unlines, joinWith]
      | cons next lines =>
          rw [unlines_cons_cons, infix_append_cons_iff hFeed, ih]
          simp only [List.mem_cons, exists_eq_or_imp]

theorem allLines_ne_nil {t : Text} (h : t ≠ []) : allLines t ≠ [] := by
  fun_cases allLines t <;> simp_all

/-- A line boundary ends a line, unless it is a carriage return before a line feed. -/
theorem allLines_cons_of_boundary {c : Char} (hc : isLineBoundary c) {t : Text}
    (hPair : ∀ u, c = '\r' → t = '\n' :: u → False) : allLines (c :: t) = [] :: allLines t := by
  cases t with
  | nil => rw [allLines.eq_4 c [] hPair (by simp), if_pos hc]
  | cons d u =>
      obtain ⟨line, rest, hLines⟩ :=
        List.exists_cons_of_ne_nil (allLines_ne_nil (List.cons_ne_nil d u))
      rw [allLines.eq_3 c d u line rest hPair hLines, if_pos hc]

/-- A character that is no line boundary joins the first line of what follows. -/
theorem allLines_cons_of_not_boundary {c : Char} (hc : isLineBoundary c = false) {t : Text}
    (ht : t ≠ []) : allLines (c :: t) = (allLines t).modifyHead (c :: ·) := by
  have hReturn : c ≠ '\r' := by rintro rfl; exact absurd hc (by decide)
  obtain ⟨d, u, rfl⟩ := List.exists_cons_of_ne_nil ht
  obtain ⟨line, rest, hLines⟩ := List.exists_cons_of_ne_nil (allLines_ne_nil ht)
  rw [allLines.eq_3 c d u line rest (fun _ h _ => hReturn h) hLines, if_neg (by simp [hc]), hLines]
  rfl

theorem allLines_singleton {c : Char} (hc : isLineBoundary c = false) : allLines [c] = [[c]] := by
  have hReturn : c ≠ '\r' := by rintro rfl; exact absurd hc (by decide)
  rw [allLines.eq_4 c [] (fun _ h _ => hReturn h) (by simp), if_neg (by simp [hc])]

theorem exists_allLines_cons {c : Char} (hc : isLineBoundary c = false) (t : Text) :
    ∃ line rest, allLines (c :: t) = (c :: line) :: rest := by
  cases t with
  | nil => exact ⟨[], [], allLines_singleton hc⟩
  | cons d u =>
      have hFilled : d :: u ≠ [] := List.cons_ne_nil d u
      obtain ⟨line, rest, hLines⟩ := List.exists_cons_of_ne_nil (allLines_ne_nil hFilled)
      exact ⟨line, rest, by rw [allLines_cons_of_not_boundary hc hFilled, hLines]; rfl⟩

theorem allLines_eq_singleton {t : Text} (hFilled : t ≠ [])
    (h : ∀ c ∈ t, isLineBoundary c = false) : allLines t = [t] := by
  induction t with
  | nil => exact absurd rfl hFilled
  | cons c t ih =>
      obtain ⟨hc, hRest⟩ := List.forall_mem_cons.1 h
      cases t with
      | nil => exact allLines_singleton hc
      | cons d u =>
          have hMore : d :: u ≠ [] := List.cons_ne_nil d u
          rw [allLines_cons_of_not_boundary hc hMore, ih hMore hRest]
          rfl

/-- The lines on the two sides of a line feed, when it does not belong to another boundary. -/
theorem allLines_append_lineFeed {s : Text} (hFilled : s ≠ [])
    (hLast : ∀ c ∈ s.getLast?, isLineBoundary c = false) (t : Text) :
    allLines (s ++ lineFeed :: t) = allLines s ++ allLines t := by
  -- a boundary is not the last character, so something follows it
  have hRest {c : Char} {rest : Text} (hc : isLineBoundary c)
      (h : ∀ d ∈ (c :: rest).getLast?, isLineBoundary d = false) : rest ≠ [] := by
    rintro rfl
    exact absurd (h c rfl) (by simp [hc])
  have hTail {c : Char} {rest : Text} (hNe : rest ≠ [])
      (h : ∀ d ∈ (c :: rest).getLast?, isLineBoundary d = false) :
      ∀ d ∈ rest.getLast?, isLineBoundary d = false := by
    obtain ⟨d, u, rfl⟩ := List.exists_cons_of_ne_nil hNe
    rwa [List.getLast?_cons_cons] at h
  fun_induction allLines s with
  | case1 => exact absurd rfl hFilled
  | case2 s ih =>
      have hFeed := hTail (List.cons_ne_nil _ _) hLast
      have hs : s ≠ [] := hRest rfl hFeed
      rw [List.cons_append, List.cons_append, allLines.eq_2, ih hs (hTail hs hFeed)]
      rfl
  | case3 c s hPair hBoundary ih =>
      have hs : s ≠ [] := hRest hBoundary hLast
      obtain ⟨d, u, rfl⟩ := List.exists_cons_of_ne_nil hs
      rw [List.cons_append, allLines_cons_of_boundary hBoundary, ih hs (hTail hs hLast)]
      · rfl
      · intro v hc hv
        exact hPair u hc (by rw [(List.cons.inj hv).1])
  | case4 c hInside d s line rest hPair hLines ih =>
      have hs : d :: s ≠ [] := List.cons_ne_nil d s
      rw [List.cons_append, allLines_cons_of_not_boundary (by simpa using hInside) (by simp),
        ih hs (hTail hs hLast), hLines]
      rfl
  | case5 c s hPair hInside hNoLines ih =>
      have hs : s = [] := by
        by_contra hs
        obtain ⟨d, u, rfl⟩ := List.exists_cons_of_ne_nil hs
        obtain ⟨line, rest, hLines⟩ := List.exists_cons_of_ne_nil (allLines_ne_nil hs)
        exact hNoLines d u line rest rfl hLines
      subst hs
      rw [List.cons_append, List.nil_append,
        allLines_cons_of_not_boundary (by simpa using hInside) (by simp),
        allLines_cons_of_boundary rfl (fun u h => absurd h (by decide))]
      rfl

/-- What has no boundary goes with the first line of what follows. -/
theorem allLines_append_of_unbroken {lead : Text} (h : ∀ c ∈ lead, isLineBoundary c = false)
    {t : Text} (ht : t ≠ []) : allLines (lead ++ t) = (allLines t).modifyHead (lead ++ ·) := by
  induction lead with
  | nil => exact (congrFun List.modifyHead_id (allLines t)).symm
  | cons c lead ih =>
      obtain ⟨hc, hLead⟩ := List.forall_mem_cons.1 h
      have hFilled : lead ++ t ≠ [] := List.append_ne_nil_of_right_ne_nil _ ht
      rw [List.cons_append, allLines_cons_of_not_boundary hc hFilled,
        ih hLead, List.modifyHead_modifyHead]
      rfl

/-- A line without boundaries is read back. -/
theorem allLines_append_cons {line : Text} (h : ∀ c ∈ line, isLineBoundary c = false) (t : Text) :
    allLines (line ++ lineFeed :: t) = line :: allLines t := by
  rw [allLines_append_of_unbroken h (List.cons_ne_nil lineFeed t),
    allLines_cons_of_boundary rfl fun _ h => absurd h (by decide), List.modifyHead_cons,
    List.append_nil]

/-- Lines without boundaries are read back, whatever lines follow. -/
theorem allLines_unlines_append {first second : List Text}
    (hFirst : ∀ line ∈ first, ∀ c ∈ line, isLineBoundary c = false) (hSecond : second ≠ []) :
    allLines (unlines (first ++ second)) = first ++ allLines (unlines second) := by
  induction first with
  | nil => rfl
  | cons line first ih =>
      obtain ⟨hLine, hRest⟩ := List.forall_mem_cons.1 hFirst
      obtain ⟨next, rest, hNext⟩ :=
        List.exists_cons_of_ne_nil (List.append_ne_nil_of_right_ne_nil first hSecond)
      rw [List.cons_append, hNext, unlines_cons_cons, allLines_append_cons hLine, ← hNext, ih hRest,
        List.cons_append]

/-! ### White space at the ends -/

theorem isLineBoundary_eq_false {c : Char} (h : isBlank c = false) : isLineBoundary c = false := by
  rw [← Bool.not_eq_true] at h ⊢
  refine mt (fun hBoundary => ?_) h
  simp only [isLineBoundary, isBlank, Bool.or_eq_true, Bool.and_eq_true, decide_eq_true_eq,
    beq_iff_eq] at hBoundary ⊢
  omega

theorem strip_cons {c : Char} (hc : isBlank c) (t : Text) : strip (c :: t) = strip t := by
  rw [strip, strip, trimWhere, trimWhere, List.dropWhile_cons_of_pos hc]

theorem strip_append_singleton (t : Text) {c : Char} (hc : isBlank c) :
    strip (t ++ [c]) = strip t := by
  rw [strip, strip, trimWhere, trimWhere, List.dropWhile_append]
  split
  · next hEmpty => rw [List.isEmpty_iff.1 hEmpty, List.dropWhile_cons_of_pos hc]; rfl
  · rw [List.reverse_append, List.reverse_singleton, List.singleton_append,
      List.dropWhile_cons_of_pos hc]

/-- White space goes from the two sides of what neither begins nor ends with any. -/
theorem strip_append {t : Text} (hFilled : t ≠ []) (hFirst : ∀ c ∈ t.head?, isBlank c = false)
    (hLast : ∀ c ∈ t.getLast?, isBlank c = false) (before after : Text) :
    (before ++ t ++ after).strip = before.skipBlanks ++ t ++ trimEndWhere isBlank after :=
  trimWhere_append hFilled hFirst hLast before after

theorem strip_prefix_skipBlanks (t : Text) : t.strip <+: t.skipBlanks := by
  have hSuffix := List.dropWhile_suffix (l := t.skipBlanks.reverse) isBlank
  rwa [← List.reverse_prefix, List.reverse_reverse] at hSuffix

theorem strip_infix (t : Text) : t.strip <:+: t :=
  (strip_prefix_skipBlanks t).isInfix.trans (List.dropWhile_suffix isBlank).isInfix

/-- What is missing in a text without the white space around it is white space. -/
theorem exists_eq_append_strip (t : Text) :
    ∃ before after, t = before ++ t.strip ++ after ∧ (∀ c ∈ before, isBlank c) ∧
      ∀ c ∈ after, isBlank c := by
  obtain ⟨after, hSkipped, hAfter⟩ := exists_eq_trimEndWhere_append (p := isBlank) t.skipBlanks
  refine ⟨t.takeWhile isBlank, after, ?_, List.all_eq_true.1 List.all_takeWhile, hAfter⟩
  calc t
    _ = t.takeWhile isBlank ++ t.skipBlanks := List.takeWhile_append_dropWhile.symm
    _ = t.takeWhile isBlank ++ (t.strip ++ after) := congrArg (t.takeWhile isBlank ++ ·) hSkipped
    _ = t.takeWhile isBlank ++ t.strip ++ after := (List.append_assoc ..).symm

theorem head?_strip (t : Text) : ∀ c ∈ t.strip.head?, isBlank c = false := by
  intro c hc
  obtain ⟨rest, hRest⟩ := strip_prefix_skipBlanks t
  have hFirst := List.head?_dropWhile_not isBlank t
  rw [← skipBlanks, ← hRest, List.head?_append, hc] at hFirst
  exact hFirst

theorem getLast?_strip (t : Text) : ∀ c ∈ t.strip.getLast?, isBlank c = false := by
  intro c hc
  have hLast := List.head?_dropWhile_not isBlank t.skipBlanks.reverse
  rw [strip, trimWhere, List.getLast?_reverse] at hc
  rw [skipBlanks, hc] at hLast
  exact hLast

theorem strip_strip (t : Text) : t.strip.strip = t.strip :=
  trimWhere_eq_self (head?_strip t) (getLast?_strip t)

/-- A text that goes on before what is left of it without white space is another one. -/
theorem strip_append_ne_strip {c : Char} (hc : isBlank c = false) (lead t : Text) :
    strip (c :: (lead ++ t)) ≠ t.strip := by
  intro hSame
  obtain ⟨before, after, hText, -, -⟩ := exists_eq_append_strip t
  by_cases hEmpty : t.strip = []
  · have hBlank := (strip_eq_nil_iff _).1 (hSame.trans hEmpty)
    rw [isBlankText, List.all_cons, hc] at hBlank
    exact absurd hBlank (by simp)
  · have hWhole : c :: (lead ++ t) = [] ++ (c :: (lead ++ before ++ t.strip)) ++ after := by
      calc c :: (lead ++ t)
        _ = c :: (lead ++ (before ++ t.strip ++ after)) := by rw [← hText]
        _ = [] ++ (c :: (lead ++ before ++ t.strip)) ++ after := by simp
    have hFirst : ∀ d ∈ (c :: (lead ++ before ++ t.strip)).head?, isBlank d = false := by
      rintro d ⟨⟩
      exact hc
    have hLast : ∀ d ∈ (c :: (lead ++ before ++ t.strip)).getLast?, isBlank d = false := by
      rw [← List.cons_append, List.getLast?_append,
        Option.or_of_isSome (List.getLast?_isSome.2 hEmpty)]
      exact getLast?_strip t
    rw [hWhole, strip_append (List.cons_ne_nil _ _) hFirst hLast] at hSame
    have hLength := congrArg List.length hSame
    simp only [List.length_append, List.length_cons] at hLength
    omega

/-! ### Words -/

theorem infix_joinWith (sep : Text) {piece : Text} {pieces : List Text} (h : piece ∈ pieces) :
    piece <:+: joinWith sep pieces := by
  induction pieces with
  | nil => exact absurd h List.not_mem_nil
  | cons first rest ih =>
      cases rest with
      | nil =>
          obtain rfl := List.mem_singleton.1 h
          exact List.infix_rfl
      | cons second rest =>
          rw [joinWith_cons sep first (List.cons_ne_nil second rest)]
          rcases List.mem_cons.1 h with rfl | h
          · rw [List.append_assoc]
            exact (List.prefix_append ..).isInfix
          · exact (ih h).trans (List.suffix_append ..).isInfix

theorem mem_joinWith {sep : Text} {pieces : List Text} {c : Char} (h : c ∈ joinWith sep pieces) :
    c ∈ sep ∨ ∃ piece ∈ pieces, c ∈ piece := by
  fun_induction joinWith sep pieces with
  | case1 => exact absurd h List.not_mem_nil
  | case2 piece => exact .inr ⟨piece, List.mem_singleton_self piece, h⟩
  | case3 piece pieces _ ih =>
      rcases List.mem_append.1 h with hFirst | hRest
      · rcases List.mem_append.1 hFirst with hPiece | hSep
        · exact .inr ⟨piece, List.mem_cons_self, hPiece⟩
        · exact .inl hSep
      · rcases ih hRest with hSep | ⟨other, hOther, hc⟩
        · exact .inl hSep
        · exact .inr ⟨other, List.mem_cons_of_mem piece hOther, hc⟩

section
variable {pieces : List Text}

theorem head?_joinWith (sep : Text) (hFilled : ∀ piece ∈ pieces, piece ≠ []) :
    ∀ c ∈ (joinWith sep pieces).head?, ∃ piece ∈ pieces, c ∈ piece := by
  intro c hc
  fun_cases joinWith sep pieces with
  | case1 => exact absurd hc (by simp [joinWith])
  | case2 piece => exact ⟨piece, List.mem_cons_self, List.mem_of_mem_head? hc⟩
  | case3 piece pieces hMore =>
      obtain ⟨d, rest, rfl⟩ := List.exists_cons_of_ne_nil (hFilled piece List.mem_cons_self)
      rw [joinWith_cons _ _ hMore] at hc
      exact ⟨d :: rest, List.mem_cons_self, List.mem_of_mem_head? hc⟩

theorem getLast?_joinWith (sep : Text) (hFilled : ∀ piece ∈ pieces, piece ≠ []) :
    ∀ c ∈ (joinWith sep pieces).getLast?, ∃ piece ∈ pieces, c ∈ piece := by
  fun_induction joinWith sep pieces with
  | case1 => simp
  | case2 piece => exact fun c hc => ⟨piece, List.mem_cons_self, List.mem_of_mem_getLast? hc⟩
  | case3 piece pieces hMore ih =>
      obtain ⟨-, hRest⟩ := List.forall_mem_cons.1 hFilled
      obtain ⟨next, others, rfl⟩ := List.exists_cons_of_ne_nil fun h => hMore h
      have hJoined : joinWith sep (next :: others) ≠ [] := fun h =>
        hRest next List.mem_cons_self
          (List.infix_nil.1 (h ▸ infix_joinWith sep (List.mem_cons_self (l := others))))
      have hLast := Option.isSome_iff_ne_none.2 (mt List.getLast?_eq_none_iff.1 hJoined)
      intro c hc
      rw [List.getLast?_append, Option.or_of_isSome hLast] at hc
      obtain ⟨other, hOther, hMem⟩ := ih hRest c hc
      exact ⟨other, List.mem_cons_of_mem piece hOther, hMem⟩

end

theorem ne_nil_of_mem_words {t word : Text} (h : word ∈ t.words) : word ≠ [] := by
  simpa using (List.mem_filter.1 h).2

theorem isBlank_eq_false_of_mem_words {t word : Text} (h : word ∈ t.words) :
    ∀ c ∈ word, isBlank c = false :=
  eq_false_of_mem_splitWhere (List.mem_filter.1 h).1

end Composer.Text
