import Composer.Proofs.Text.Joining
import Composer.Text.Letter

/-!
Beginnings in any letter case. White space is no letter, and what follows a character that is no
letter has no part in what is recognised.
-/

namespace Composer

/-- Only capitals of ASCII have another character for their lower case. -/
theorem toLower_eq_self {c : Char} (h : ¬(65 ≤ c.toNat ∧ c.toNat ≤ 90)) : c.toLower = c := by
  unfold Char.toLower
  rw [dif_neg]
  exact fun hUpper => h ⟨hUpper.1, hUpper.2⟩

namespace Text

theorem toLower_of_isBlank {c : Char} (hc : isBlank c) : c.toLower = c := by
  apply toLower_eq_self
  simp only [isBlank, Bool.or_eq_true, Bool.and_eq_true, decide_eq_true_eq, beq_iff_eq] at hc
  omega

/-- White space is no letter, in whatever case. -/
theorem isLetterFolded_of_isBlank {l c : Char} (hl : isBlank l = false) (hc : isBlank c) :
    isLetterFolded l c = false := by
  have hNe {d : Char} (hd : isBlank d = false) : c ≠ d := by
    rintro rfl
    simp [hd] at hc
  have hLong : c ≠ '\u017f' := hNe (by decide)
  have hKelvin : c ≠ '\u212a' := hNe (by decide)
  have hDotted : c ≠ '\u0130' := hNe (by decide)
  have hDotless : c ≠ '\u0131' := hNe (by decide)
  simp [isLetterFolded, toLower_of_isBlank hc, hNe hl, hLong, hKelvin, hDotted, hDotless]

/-- A character that is no letter of a beginning ends it at most. -/
theorem afterFolded?_append_cons {lead : Text} {c : Char}
    (hc : ∀ l ∈ lead, isLetterFolded l c = false) (t more : Text) :
    afterFolded? lead (t ++ c :: more) = (afterFolded? lead t).map (· ++ c :: more) := by
  induction lead generalizing t with
  | nil => rfl
  | cons l lead ih =>
      obtain ⟨hHead, hTail⟩ := List.forall_mem_cons.1 hc
      cases t with
      | nil => simp [afterFolded?, hHead]
      | cons d t =>
          simp only [List.cons_append, afterFolded?]
          split
          · exact ih hTail t
          · rfl

theorem suffix_of_afterFolded?_eq_some {lead t rest : Text} (h : afterFolded? lead t = some rest) :
    rest <:+ t := by
  induction lead generalizing t with
  | nil => exact Option.some.inj h ▸ List.suffix_rfl
  | cons l lead ih =>
      cases t with
      | nil => exact absurd h (by simp [afterFolded?])
      | cons c t =>
          rw [afterFolded?] at h
          split at h
          · exact (ih h).trans (List.suffix_cons c t)
          · exact absurd h (by simp)

/-- What is recognised begins with its first letter. -/
theorem exists_of_afterFolded?_eq_some {l : Char} {lead t rest : Text}
    (h : afterFolded? (l :: lead) t = some rest) :
    ∃ c spelled, t = c :: (spelled ++ rest) ∧ isLetterFolded l c := by
  cases t with
  | nil => exact absurd h (by simp [afterFolded?])
  | cons c t =>
      rw [afterFolded?] at h
      split at h
      · next hLetter =>
          obtain ⟨spelled, rfl⟩ := suffix_of_afterFolded?_eq_some h
          exact ⟨c, spelled, rfl, hLetter⟩
      · exact absurd h (by simp)

end Text

end Composer
