import Composer.Proofs.Response.Escapes
import Mathlib.Logic.Function.Iterate

/-!
Undoing escapes in one pass. The rounds end, at a text with no escape left, and that text is the one
that a single pass over the runs of backslashes gives: a round takes a run no further than the pass
does, so the pass gives the same before a round and after it, and a text with no escape left it
leaves as it is.
-/

namespace Composer.Escapes

/-! ### Rounds -/

/-- The mark that a backslash before it leaves. -/
def mark? (c : Char) : Option Char := if isMark c then some c else none

/-- The text with every escape that `decode` knows replaced by what it stands for. -/
def decoded (decode : Char → Option Char) : Text → Text
  | [] => []
  | [c] => [c]
  | '\\' :: c :: t =>
    match decode c with
    | some e => e :: decoded decode t
    | none => '\\' :: decoded decode (c :: t)
  | c :: d :: t => c :: decoded decode (d :: t)

theorem dropMarks_eq_decoded (t : Text) : dropMarks t = decoded mark? t := by
  fun_induction dropMarks t with
  | case1 => rfl
  | case2 c => rfl
  | case3 c t hMark ih => simp [decoded, mark?, hMark, ih]
  | case4 c t hMark ih => simp [decoded, mark?, hMark, ih]
  | case5 c d t hNot ih => simp [decoded, ih]

theorem expandControls_eq_decoded (t : Text) : expandControls t = decoded control? t := by
  fun_induction expandControls t with
  | case1 => rfl
  | case2 c => rfl
  | case3 c t e hControl ih => simp [decoded, hControl, ih]
  | case4 c t hControl ih => simp [decoded, hControl, ih]
  | case5 c d t hNot ih => simp [decoded, ih]

/-- A round that changes nothing changes nothing in either of its halves. -/
theorem decoded_eq_self_of_round {t : Text} (h : round t = t) :
    decoded mark? t = t ∧ decoded control? t = t := by
  rw [← dropMarks_eq_decoded, ← expandControls_eq_decoded]
  have hMarks := length_dropMarks_le t
  have hControls := length_expandControls_le (dropMarks t)
  have hLength : (expandControls (dropMarks t)).length = t.length := congrArg List.length h
  have hFirst : dropMarks t = t := dropMarks_eq_self (by omega)
  refine ⟨hFirst, ?_⟩
  rw [round, hFirst] at h
  exact h

/-- The rounds end: after at most as many as the text has characters, with the first text that a
round does not change. -/
theorem exists_iterate_round_eq (t : Text) :
    ∃ count ≤ t.length, round^[count] t = undo t ∧ round (undo t) = undo t ∧
      ∀ fewer < count, round (round^[fewer] t) ≠ round^[fewer] t := by
  fun_induction undo t with
  | case1 t hSame => exact ⟨0, Nat.zero_le _, rfl, hSame, by simp⟩
  | case2 t hOther ih =>
      obtain ⟨count, hCount, hUndo, hLast, hFewer⟩ := ih
      have hShorter := length_round_lt hOther
      refine ⟨count + 1, by omega, hUndo, hLast, fun fewer hLess => ?_⟩
      cases fewer with
      | zero => exact hOther
      | succ fewer => exact hFewer fewer (by omega)

theorem round_undo (t : Text) : round (undo t) = undo t := by
  obtain ⟨_, -, -, hLast, -⟩ := exists_iterate_round_eq t
  exact hLast

/-! ### The single pass -/

/-- A character that is no backslash ends a run, and the pass goes on behind it. -/
theorem settledAfter_cons {c : Char} (hc : c ≠ '\\') (count : Nat) (t : Text) :
    settledAfter count (c :: t) = settledAfter count [c] ++ settledAfter 0 t := by
  simp only [settledAfter, if_neg hc]
  split
  · rfl
  · split
    · rfl
    · split <;> simp

/-- The pass takes an escape that `decode` knows for what it stands for, behind any run. -/
def Settles (decode : Char → Option Char) : Prop :=
  ∀ c e, decode c = some e → c ≠ '\\' ∧ e ≠ '\\' ∧
    ∀ count, settledAfter (count + 1) [c] = settledAfter count [e]

theorem settles_mark? : Settles mark? := by
  intro c e h
  have hMark : isMark c := by
    cases hc : isMark c with
    | true => rfl
    | false => simp [mark?, hc] at h
  have hNe : c ≠ '\\' := by
    rintro rfl
    exact absurd hMark (by decide)
  obtain rfl : c = e := by simpa [mark?, hMark] using h
  refine ⟨hNe, hNe, fun count => ?_⟩
  simp [settledAfter, hNe, hMark]

theorem settles_control? : Settles control? := by
  intro c e h
  unfold control? at h
  split at h
  · obtain rfl := Option.some.inj h
    exact ⟨by decide, by decide, fun count => by cases count <;> rfl⟩
  · obtain rfl := Option.some.inj h
    exact ⟨by decide, by decide, fun count => by cases count <;> rfl⟩
  · obtain rfl := Option.some.inj h
    exact ⟨by decide, by decide, fun count => by cases count <;> rfl⟩
  · exact absurd h (by simp)

theorem settledAfter_decoded {decode : Char → Option Char} (hDecode : Settles decode)
    (count : Nat) (t : Text) : settledAfter count (decoded decode t) = settledAfter count t := by
  fun_induction decoded decode t generalizing count with
  | case1 => rfl
  | case2 c => rfl
  | case3 c t e hEscape ih =>
      obtain ⟨hc, he, hSame⟩ := hDecode c e hEscape
      calc settledAfter count (e :: decoded decode t)
        _ = settledAfter count [e] ++ settledAfter 0 t := by rw [settledAfter_cons he, ih]
        _ = settledAfter (count + 1) (c :: t) := by rw [← hSame, ← settledAfter_cons hc]
        _ = settledAfter count ('\\' :: c :: t) := rfl
  | case4 c t hEscape ih =>
      calc settledAfter count ('\\' :: decoded decode (c :: t))
        _ = settledAfter (count + 1) (decoded decode (c :: t)) := rfl
        _ = settledAfter count ('\\' :: c :: t) := ih (count + 1)
  | case5 c d t hNot ih =>
      rw [settledAfter_cons hNot, ih, ← settledAfter_cons hNot]

theorem settled_round (t : Text) : settled (round t) = settled t := by
  rw [round, dropMarks_eq_decoded, expandControls_eq_decoded]
  exact (settledAfter_decoded settles_control? 0 _).trans
    (settledAfter_decoded settles_mark? 0 t)

theorem settled_undo (t : Text) : settled (undo t) = settled t := by
  fun_induction undo t with
  | case1 t hSame => rfl
  | case2 t hOther ih => exact ih.trans (settled_round t)

/-! ### Texts with no escape left -/

/-- The characters that form an escape with a backslash before them. -/
def escapable : List Char := ['"', '\'', 'n', 'r', 't']

def IsSettled (t : Text) : Prop := ∀ c ∈ escapable, ¬['\\', c] <:+: t

theorem IsSettled.of_infix {s t : Text} (h : IsSettled t) (hInfix : s <:+: t) : IsSettled s :=
  fun c hc hEscape => h c hc (hEscape.trans hInfix)

/-- Where replacing the escapes that `decode` knows changes nothing, there is none of them. -/
theorem not_infix_of_decoded_eq {decode : Char → Option Char} (hDecode : Settles decode)
    {t : Text} (hSame : decoded decode t = t) {c : Char} (hc : (decode c).isSome) :
    ¬['\\', c] <:+: t := by
  fun_induction decoded decode t with
  | case1 => simp
  | case2 d =>
      intro hInfix
      exact absurd hInfix.length_le (by simp)
  | case3 d t e hEscape ih =>
      obtain ⟨-, he, -⟩ := hDecode d e hEscape
      exact absurd (List.cons.inj hSame).1 he
  | case4 d t hNone ih =>
      rw [List.infix_cons_iff]
      refine not_or.2 ⟨fun hPrefix => ?_, ih (List.cons.inj hSame).2⟩
      obtain ⟨-, hNext⟩ := List.cons_prefix_cons.1 hPrefix
      obtain ⟨rfl, -⟩ := List.cons_prefix_cons.1 hNext
      simp [hNone] at hc
  | case5 d e t hNot ih =>
      rw [List.infix_cons_iff]
      refine not_or.2 ⟨fun hPrefix => ?_, ih (List.cons.inj hSame).2⟩
      exact hNot (List.cons_prefix_cons.1 hPrefix).1.symm

theorem isSettled_undo (t : Text) : IsSettled (undo t) := by
  obtain ⟨hMarks, hControls⟩ := decoded_eq_self_of_round (round_undo t)
  have hKnown : ∀ c ∈ escapable, (mark? c).isSome || (control? c).isSome :=
    List.all_eq_true.1 (by decide)
  intro c hc
  rcases Bool.or_eq_true_iff.1 (hKnown c hc) with hMark | hControl
  · exact not_infix_of_decoded_eq settles_mark? hMarks hMark
  · exact not_infix_of_decoded_eq settles_control? hControls hControl

/-- Behind a run of backslashes the pass keeps a character that forms no escape with them. -/
theorem settledAfter_singleton {c : Char} (hc : c ≠ '\\') {count : Nat}
    (hEscape : 0 < count → c ∉ escapable) :
    settledAfter count [c] = List.replicate count '\\' ++ [c] := by
  rw [settledAfter, if_neg hc]
  split
  · next hNone => rw [hNone]; rfl
  · next hRun =>
      have hOther := hEscape (Nat.pos_of_ne_zero hRun)
      have hMark : isMark c = false := by
        rw [← Bool.not_eq_true]
        intro hMark
        simp only [isMark, Bool.or_eq_true, beq_iff_eq] at hMark
        rcases hMark with rfl | rfl <;> exact hOther (by decide)
      have hControl : control? c = none := by
        unfold control?
        split
        · exact absurd (by decide) hOther
        · exact absurd (by decide) hOther
        · exact absurd (by decide) hOther
        · rfl
      simp [hMark, hControl, settledAfter]

/-- The pass leaves a text with no escape left as it is. -/
theorem settledAfter_eq_self (count : Nat) {t : Text}
    (h : IsSettled (List.replicate count '\\' ++ t)) :
    settledAfter count t = List.replicate count '\\' ++ t := by
  induction t generalizing count with
  | nil => rw [settledAfter, List.append_nil]
  | cons c t ih =>
      by_cases hc : c = '\\'
      · subst hc
        have hRun : List.replicate count '\\' ++ '\\' :: t =
            List.replicate (count + 1) '\\' ++ t := by
          rw [List.replicate_succ', List.append_assoc, List.singleton_append]
        rw [hRun] at h ⊢
        exact ih (count + 1) h
      · have hEscape : 0 < count → c ∉ escapable := by
          intro hRun hMem
          obtain ⟨fewer, rfl⟩ := Nat.exists_eq_succ_of_ne_zero (Nat.ne_of_gt hRun)
          refine h c hMem ⟨List.replicate fewer '\\', t, ?_⟩
          rw [List.replicate_succ', List.append_assoc, List.append_assoc]
          rfl
        have hRest : IsSettled (List.replicate 0 '\\' ++ t) :=
          h.of_infix ((List.suffix_cons c t).trans (List.suffix_append ..)).isInfix
        rw [settledAfter_cons hc, settledAfter_singleton hc hEscape, ih 0 hRest,
          List.append_assoc]
        rfl

theorem undo_eq_settled (t : Text) : undo t = settled t :=
  calc undo t
    _ = settled (undo t) := (settledAfter_eq_self 0 (isSettled_undo t)).symm
    _ = settled t := settled_undo t

/-- Undoing escapes ends, with the first text that a round does not change, and gives what the
single pass over the runs of backslashes gives. So it leaves no escape, undoing again changes
nothing, and only the characters that escapes are written with, or stand for, may change in number,
save the quotation marks; the voices do not. -/
theorem undo_settles (code : Text) :
    (∃ count ≤ code.length, round^[count] code = undo code ∧ round (undo code) = undo code ∧
      ∀ fewer < count, round (round^[fewer] code) ≠ round^[fewer] code) ∧
    undo code = settled code ∧
    undo (undo code) = undo code ∧
    (∀ c ∈ escapable, ¬['\\', c] <:+: undo code) ∧
    (∀ x ∉ changedChars, (undo code).countChar x = code.countChar x) ∧
    Measure.voices (undo code) = Measure.voices code := by
  refine ⟨exists_iterate_round_eq code, undo_eq_settled code, ?_, isSettled_undo code,
    fun x hx => countChar_undo code hx, voices_undo code⟩
  rw [undo, if_pos (round_undo code)]

/-- Of a run of backslashes before a quotation mark nothing is left, and before a letter of a
control character all but the last; another run stays. -/
example : settled "\\\\\"\\\\n\\\\d" = "\"\\\n\\\\d".toList := by decide

end Composer.Escapes
