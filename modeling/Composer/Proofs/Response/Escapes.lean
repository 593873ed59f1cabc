import Composer.Code.Measure
import Composer.Response.Escapes

/-!
What undoing escapes keeps. Each round rewrites some escapes of the text and keeps all else, so it
neither takes nor adds a character that has no part in escapes: the voices and the brackets of code
are counted as before, and a tempo that is set stays set.
-/

namespace Composer.Escapes

/-- A text with some of its escapes rewritten. -/
inductive Rewrites : Text → Text → Prop where
  | nil : Rewrites [] []
  | keep {t u : Text} (c : Char) (h : Rewrites t u) : Rewrites (c :: t) (c :: u)
  | mark {t u : Text} {m : Char} (hMark : isMark m) (h : Rewrites t u) :
      Rewrites ('\\' :: m :: t) (m :: u)
  | control {t u : Text} {c e : Char} (hControl : control? c = some e) (h : Rewrites t u) :
      Rewrites ('\\' :: c :: t) (e :: u)

theorem rewrites_dropMarks (t : Text) : Rewrites t (dropMarks t) := by
  fun_induction dropMarks t with
  | case1 => exact .nil
  | case2 c => exact .keep c .nil
  | case3 c t hMark ih => exact .mark hMark ih
  | case4 c t hMark ih => exact .keep '\\' ih
  | case5 c d t hNot ih => exact .keep c ih

theorem rewrites_expandControls (t : Text) : Rewrites t (expandControls t) := by
  fun_induction expandControls t with
  | case1 => exact .nil
  | case2 c => exact .keep c .nil
  | case3 c t e hControl ih => exact .control hControl ih
  | case4 c t hControl ih => exact .keep '\\' ih
  | case5 c d t hNot ih => exact .keep c ih

/-- What every rewriting carries over is carried over by undoing all escapes. -/
theorem undo_of_rewrites {P : Text → Prop} (hRewrites : ∀ {t u : Text}, Rewrites t u → P t → P u)
    {t : Text} (h : P t) : P (undo t) := by
  fun_induction undo t with
  | case1 t hSame => exact h
  | case2 t hOther ih =>
      exact ih (hRewrites (rewrites_expandControls _) (hRewrites (rewrites_dropMarks t) h))

/-- The characters of escapes, and those that escapes stand for. -/
def escapeChars : List Char := ['\\', '"', '\'', 'n', 'r', 't', '\n', '\r', '\t']

def Inert (x : Char) : Prop := x ∉ escapeChars

instance (x : Char) : Decidable (Inert x) := inferInstanceAs (Decidable (x ∉ escapeChars))

theorem Inert.ne_backslash {x : Char} (hx : Inert x) : '\\' ≠ x := by
  rintro rfl
  exact hx (by decide)

theorem Inert.ne_mark {x m : Char} (hx : Inert x) (hMark : isMark m) : m ≠ x := by
  rintro rfl
  simp only [isMark, Bool.or_eq_true, beq_iff_eq] at hMark
  rcases hMark with rfl | rfl <;> exact hx (by decide)

/-- The characters that rewriting takes away or puts in: those of escapes, save the quotation marks,
and those that escapes stand for. -/
def changedChars : List Char := ['\\', 'n', 'r', 't', '\n', '\r', '\t']

theorem mem_changedChars_of_control {c e : Char} (hControl : control? c = some e) :
    c ∈ changedChars ∧ e ∈ changedChars := by
  unfold control? at hControl
  split at hControl
  · exact Option.some.inj hControl ▸ by decide
  · exact Option.some.inj hControl ▸ by decide
  · exact Option.some.inj hControl ▸ by decide
  · exact absurd hControl (by simp)

theorem Inert.ne_control {x c e : Char} (hx : Inert x) (hControl : control? c = some e) :
    c ≠ x ∧ e ≠ x := by
  have hEscape : ∀ y ∈ changedChars, y ∈ escapeChars := by simp [changedChars, escapeChars]
  obtain ⟨hc, he⟩ := mem_changedChars_of_control hControl
  exact ⟨fun h => hx (h ▸ hEscape c hc), fun h => hx (h ▸ hEscape e he)⟩

theorem Rewrites.countChar_eq {t u : Text} {x : Char} (h : Rewrites t u) (hx : x ∉ changedChars) :
    u.countChar x = t.countChar x := by
  have hNe {c : Char} (hc : c ∈ changedChars) : c ≠ x := by
    rintro rfl
    exact hx hc
  have hBackslash : '\\' ≠ x := hNe (by decide)
  induction h with
  | nil => rfl
  | keep c h ih => simpa [Text.countChar, List.count_cons] using ih
  | mark hMark h ih => simpa [Text.countChar, List.count_cons, hBackslash] using ih
  | control hControl h ih =>
      obtain ⟨hc, he⟩ := mem_changedChars_of_control hControl
      simpa [Text.countChar, List.count_cons, hNe hc, hNe he, hBackslash] using ih

/-- A text starts with an inert character exactly when it does after rewriting. -/
theorem Rewrites.head?_eq_iff {t u : Text} {x : Char} (h : Rewrites t u) (hx : Inert x) :
    u.head? = some x ↔ t.head? = some x := by
  cases h with
  | nil => rfl
  | keep c h => rfl
  | mark hMark h => simp [hx.ne_mark hMark, hx.ne_backslash]
  | control hControl h => simp [hx.ne_control hControl, hx.ne_backslash]

theorem startsWith_pair_iff {x y c : Char} {t : Text} :
    Text.startsWith (c :: t) [x, y] ↔ x = c ∧ t.head? = some y := by
  unfold Text.startsWith
  cases t with
  | nil => simp [Text.after?]
  | cons d t =>
      by_cases hc : x = c
      · by_cases hd : y = d
        · simp [Text.after?, hc, hd]
        · simp [Text.after?, hc, hd, eq_comm]
      · simp [Text.after?, hc]

theorem Rewrites.countWhere_pair_eq {t u : Text} {x y : Char} (h : Rewrites t u) (hx : Inert x)
    (hy : Inert y) :
    Text.countWhere (·.startsWith [x, y]) u = Text.countWhere (·.startsWith [x, y]) t := by
  induction h with
  | nil => rfl
  | keep c h ih => simp only [Text.countWhere, startsWith_pair_iff, h.head?_eq_iff hy, ih]
  | mark hMark h ih =>
      simp [Text.countWhere, startsWith_pair_iff, (hx.ne_mark hMark).symm, hx.ne_backslash.symm, ih]
  | control hControl h ih =>
      simp [Text.countWhere, startsWith_pair_iff, (hx.ne_control hControl).1.symm,
        (hx.ne_control hControl).2.symm, hx.ne_backslash.symm, ih]

/-- A beginning of inert characters stands there after rewriting exactly when it stood there
before. -/
theorem Rewrites.prefix_iff {t u needle : Text} (h : Rewrites t u)
    (hNeedle : ∀ x ∈ needle, Inert x) : needle <+: u ↔ needle <+: t := by
  induction h generalizing needle with
  | nil => rfl
  | @keep t u c h ih =>
      cases needle with
      | nil => simp
      | cons x needle =>
          rw [List.cons_prefix_cons, List.cons_prefix_cons,
            ih fun y hy => hNeedle y (List.mem_cons_of_mem x hy)]
  | @mark t u m hMark h ih =>
      cases needle with
      | nil => simp
      | cons x needle =>
          have hx := hNeedle x List.mem_cons_self
          simp [List.cons_prefix_cons, (hx.ne_mark hMark).symm, hx.ne_backslash.symm]
  | @control t u c e hControl h ih =>
      cases needle with
      | nil => simp
      | cons x needle =>
          have hx := hNeedle x List.mem_cons_self
          simp [List.cons_prefix_cons, (hx.ne_control hControl).2.symm, hx.ne_backslash.symm]

/-- Rewriting brings about no needle of inert characters, and takes none away. -/
theorem Rewrites.infix_iff {t u needle : Text} (h : Rewrites t u)
    (hNeedle : ∀ x ∈ needle, Inert x) (hFilled : needle ≠ []) :
    needle <:+: u ↔ needle <:+: t := by
  obtain ⟨x, rest, hText⟩ := List.exists_cons_of_ne_nil hFilled
  have hx : Inert x := hNeedle x (hText ▸ List.mem_cons_self)
  have hStart {d : Char} (hd : d ≠ x) (v : Text) : ¬needle <+: d :: v := by
    rw [hText, List.cons_prefix_cons]
    exact fun hPrefix => hd hPrefix.1.symm
  induction h with
  | nil => rfl
  | keep c h ih =>
      have hHere := (Rewrites.keep c h).prefix_iff hNeedle
      simp only [List.infix_cons_iff, hHere, ih]
  | mark hMark h ih =>
      have hMarkNe := hx.ne_mark hMark
      simp only [List.infix_cons_iff, hStart hMarkNe, hStart hx.ne_backslash, ih, false_or]
  | control hControl h ih =>
      obtain ⟨hLetter, hFeed⟩ := hx.ne_control hControl
      simp only [List.infix_cons_iff, hStart hLetter, hStart hFeed, hStart hx.ne_backslash, ih,
        false_or]

/-- A beginning without backslashes is kept. -/
theorem Rewrites.of_append {lead t u : Text} (hLead : '\\' ∉ lead) (h : Rewrites (lead ++ t) u) :
    ∃ v, u = lead ++ v ∧ Rewrites t v := by
  induction lead generalizing u with
  | nil => exact ⟨u, rfl, h⟩
  | cons c lead ih =>
      obtain ⟨hc, hRest⟩ := not_or.1 (mt List.mem_cons.2 hLead)
      rw [List.cons_append] at h
      generalize hText : c :: (lead ++ t) = text at h
      cases h with
      | nil => exact absurd hText (by simp)
      | keep d hTail =>
          obtain ⟨rfl, rfl⟩ := List.cons.inj hText
          obtain ⟨v, rfl, hv⟩ := ih hRest hTail
          exact ⟨v, rfl, hv⟩
      | mark hMark hTail => exact absurd (List.cons.inj hText).1.symm hc
      | control hControl hTail => exact absurd (List.cons.inj hText).1.symm hc

/-- Whether a text begins with what is recognised depends on a beginning without backslashes. -/
def Spelled (recognise : Text → Option Text) : Prop :=
  ∀ t rest, recognise t = some rest → ∃ lead, t = lead ++ rest ∧ '\\' ∉ lead ∧
    ∀ other, recognise (lead ++ other) = some other

theorem Spelled.bind {first second : Text → Option Text} (hFirst : Spelled first)
    (hSecond : Spelled second) : Spelled fun t => (first t).bind second := by
  intro t rest h
  obtain ⟨middle, hMiddle, hRest⟩ := Option.bind_eq_some_iff.1 h
  obtain ⟨lead, rfl, hLead, hAgain⟩ := hFirst _ _ hMiddle
  obtain ⟨more, rfl, hMore, hAlso⟩ := hSecond _ _ hRest
  refine ⟨lead ++ more, (List.append_assoc ..).symm, ?_, fun other => ?_⟩
  · rw [List.mem_append]
    exact not_or.2 ⟨hLead, hMore⟩
  · simp [hAgain, hAlso]

theorem opening?_spelled : Spelled Call.opening? := by
  intro t rest h
  induction t with
  | nil => simp [Call.opening?, Text.skipBlanks, Text.after?] at h
  | cons c t ih =>
      by_cases hBlank : isBlank c
      · have hTail : Call.opening? t = some rest := by
          simpa [Call.opening?, Text.skipBlanks, hBlank] using h
        obtain ⟨lead, rfl, hPlain, hAgain⟩ := ih hTail
        refine ⟨c :: lead, rfl, ?_, fun other => ?_⟩
        · rintro (_ | ⟨_, hMem⟩)
          · exact absurd hBlank (by decide)
          · exact hPlain hMem
        · simpa [Call.opening?, Text.skipBlanks, hBlank] using hAgain other
      · have hOpen : '(' = c ∧ t = rest := by
          simpa [Call.opening?, Text.skipBlanks, hBlank, Text.after?] using h
        obtain ⟨rfl, rfl⟩ := hOpen
        exact ⟨['('], rfl, by decide, fun other => rfl⟩

theorem afterFolded?_spelled {name : Text} (hName : ∀ l ∈ name, isLetterFolded l '\\' = false) :
    Spelled (Text.afterFolded? name) := by
  intro t rest h
  induction name generalizing t with
  | nil => exact ⟨[], Option.some.inj h, by simp, fun other => rfl⟩
  | cons l name ih =>
      cases t with
      | nil => simp [Text.afterFolded?] at h
      | cons c t =>
          obtain ⟨hHead, hTail⟩ := List.forall_mem_cons.1 hName
          simp only [Text.afterFolded?] at h
          split at h
          · next hLetter =>
              obtain ⟨lead, rfl, hPlain, hAgain⟩ := ih hTail t h
              refine ⟨c :: lead, rfl, ?_, fun other => ?_⟩
              · rintro (_ | ⟨_, hMem⟩)
                · exact absurd hLetter (by simp [hHead])
                · exact hPlain hMem
              · simpa [Text.afterFolded?, hLetter] using hAgain other
          · exact absurd h (by simp)

/-- What is recognised at the start of a text is recognised there after rewriting. -/
theorem Spelled.rewrites {recognise : Text → Option Text} (hSpelled : Spelled recognise)
    {t u : Text} (hRewrites : Rewrites t u) (h : (recognise t).isSome) : (recognise u).isSome := by
  obtain ⟨rest, hRest⟩ := Option.isSome_iff_exists.1 h
  obtain ⟨lead, rfl, hPlain, hAgain⟩ := hSpelled _ _ hRest
  obtain ⟨v, rfl, -⟩ := hRewrites.of_append hPlain
  rw [hAgain v]
  rfl

/-- What is true at some place of a text stays true at some place, if rewriting after that place does
not matter and no escape starts there. -/
theorem Rewrites.anywhere {p : Text → Bool} (hKept : ∀ {t u}, Rewrites t u → p t → p u)
    (hEscape : ∀ c ∈ escapeChars, ∀ t, p (c :: t) = false) {t u : Text} (h : Rewrites t u)
    (hAnywhere : Text.anywhere p t) : Text.anywhere p u := by
  induction h with
  | nil => exact hAnywhere
  | @keep t u c h ih =>
      simp only [Text.anywhere, Bool.or_eq_true] at hAnywhere ⊢
      exact hAnywhere.imp (hKept (.keep c h)) ih
  | @mark t u m hMark h ih =>
      have hm : m ∈ escapeChars := Decidable.byContradiction fun hx => Inert.ne_mark hx hMark rfl
      simp only [Text.anywhere, Bool.or_eq_true, hEscape '\\' (by decide), hEscape m hm,
        Bool.false_eq_true, false_or] at hAnywhere ⊢
      exact ih hAnywhere
  | @control t u c e hControl h ih =>
      have hc : c ∈ escapeChars :=
        Decidable.byContradiction fun hx => (Inert.ne_control hx hControl).1 rfl
      simp only [Text.anywhere, Bool.or_eq_true, hEscape '\\' (by decide), hEscape c hc,
        Bool.false_eq_true, false_or] at hAnywhere ⊢
      exact .inr (ih hAnywhere)

theorem Rewrites.setsTempo {t u : Text} (h : Rewrites t u) (hTempo : Measure.setsTempo t) :
    Measure.setsTempo u := by
  have hBackslash : ("setcpm" : Text).all (fun l => !isLetterFolded l '\\') = true := by decide
  have hSpelled : Spelled (Call.namedFolded? "setcpm") := by
    refine Spelled.bind (afterFolded?_spelled fun l hl => ?_) opening?_spelled
    simpa using List.all_eq_true.1 hBackslash l hl
  refine h.anywhere (hSpelled.rewrites) (fun c hc t => ?_) hTempo
  have hLetters : escapeChars.all (fun c => !isLetterFolded 's' c) = true := by decide
  have hLetter : isLetterFolded 's' c = false := by
    simpa using List.all_eq_true.1 hLetters c hc
  change (Call.namedFolded? "setcpm" (c :: t)).isSome = false
  simp [Call.namedFolded?, Text.afterFolded?, hLetter]

section
variable (t : Text)

theorem voices_undo : Measure.voices (undo t) = Measure.voices t :=
  undo_of_rewrites (P := fun u => Measure.voices u = Measure.voices t)
    (fun h hVoices => (h.countWhere_pair_eq (by decide) (by decide)).trans hVoices) rfl

theorem countChar_undo {x : Char} (hx : x ∉ changedChars) :
    (undo t).countChar x = t.countChar x :=
  undo_of_rewrites (P := fun u => u.countChar x = t.countChar x)
    (fun h hCount => (h.countChar_eq hx).trans hCount) rfl

/-- Undoing escapes brings about no needle of inert characters, and takes none away. -/
theorem infix_undo_iff {needle : Text} (hNeedle : ∀ x ∈ needle, Inert x) (hFilled : needle ≠ []) :
    needle <:+: undo t ↔ needle <:+: t :=
  undo_of_rewrites (P := fun u => needle <:+: u ↔ needle <:+: t)
    (fun h hInfix => (h.infix_iff hNeedle hFilled).trans hInfix) Iff.rfl

theorem unbalanced_undo : Measure.unbalanced (undo t) = Measure.unbalanced t := by
  unfold Measure.unbalanced Measure.Bracket.all
  have hOpening : ∀ b : Measure.Bracket, (undo t).countChar b.opening = t.countChar b.opening :=
    fun b => countChar_undo t (by cases b <;> decide)
  have hClosing : ∀ b : Measure.Bracket, (undo t).countChar b.closing = t.countChar b.closing :=
    fun b => countChar_undo t (by cases b <;> decide)
  simp only [hOpening, hClosing]

theorem setsTempo_undo (h : Measure.setsTempo t) : Measure.setsTempo (undo t) :=
  undo_of_rewrites (P := fun u => Measure.setsTempo u) (fun h => h.setsTempo) h

end

theorem undo_eq_self {t : Text} (h : '\\' ∉ t) : undo t = t := by
  have hSame : ∀ {u}, Rewrites t u → u = t := by
    intro u hu
    rw [← List.append_nil t] at hu
    obtain ⟨v, rfl, hv⟩ := hu.of_append h
    cases hv
    exact List.append_nil t
  have hRound : round t = t := by
    have hMarks := hSame (rewrites_dropMarks t)
    rw [round, hMarks]
    exact hSame (rewrites_expandControls t)
  rw [undo, if_pos hRound]

end Composer.Escapes
