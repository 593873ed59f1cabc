import Composer.Proofs.Text.Joining
import Composer.Proofs.Text.Letters
import Composer.Text.Keyword
import Mathlib.Data.List.Basic

/-!
Keywords that are joined by hyphens. A hyphen separates keywords, so they are read back from what
they make up; and a beginning of it is made up of keywords in turn, unless it ends with one of the
hyphens.
-/

namespace Composer

theorem isKeywordChar_iff (c : Char) :
    isKeywordChar c ↔ (97 ≤ c.toNat ∧ c.toNat ≤ 122) ∨ (48 ≤ c.toNat ∧ c.toNat ≤ 57) := by
  simp only [isKeywordChar, Bool.or_eq_true, Bool.and_eq_true, decide_eq_true_eq, Char.le_def,
    UInt32.le_iff_toNat_le]
  rfl

theorem ne_of_isKeywordChar {c d : Char} (hc : isKeywordChar c) (hd : isKeywordChar d = false) :
    c ≠ d := by
  rintro rfl
  simp [hd] at hc

theorem lowerChar_of_isKeywordChar {c : Char} (h : isKeywordChar c) : lowerChar c = [c] := by
  have hKelvin : c ≠ '\u212a' := ne_of_isKeywordChar h (by decide)
  have hDotted : c ≠ '\u0130' := ne_of_isKeywordChar h (by decide)
  have hLower : c.toLower = c := by
    rw [isKeywordChar_iff] at h
    apply toLower_eq_self
    omega
  simp [lowerChar, hKelvin, hDotted, hLower]

/-- What can be one keyword: letters and digits of ASCII in lower case, at least one. -/
structure IsKeyword (word : Text) : Prop where
  filled : word ≠ []
  chars : ∀ c ∈ word, isKeywordChar c

theorem isKeyword_singleton {c : Char} (hc : isKeywordChar c) : IsKeyword [c] where
  filled := List.cons_ne_nil c []
  chars := List.forall_mem_singleton.2 hc

theorem ne_hyphen_of_mem_keyword {words : List Text} (hWords : ∀ word ∈ words, IsKeyword word)
    {c : Char} (h : ∃ word ∈ words, c ∈ word) : c ≠ '-' := by
  obtain ⟨word, hWord, hMem⟩ := h
  exact ne_of_isKeywordChar ((hWords word hWord).chars c hMem) (by decide)

/-- Any number of keywords with single hyphens between them. -/
def IsHyphenated (t : Text) : Prop :=
  ∃ words, (∀ word ∈ words, IsKeyword word) ∧ t = Text.joinWith ['-'] words

namespace Text

/-! ### Runs -/

/-- The longest runs of keyword characters in a text that is in lower case. -/
def runs (t : Text) : List Text := (splitWhere (!isKeywordChar ·) t).filter (!·.isEmpty)

theorem keywords_eq (t : Text) : t.keywords = runs t.lower := rfl

theorem isKeyword_of_mem_runs {t word : Text} (h : word ∈ t.runs) : IsKeyword word where
  filled := by simpa using (List.mem_filter.1 h).2
  chars c hc := by simpa using eq_false_of_mem_splitWhere (List.mem_filter.1 h).1 c hc

/-- Runs end at a character that is in none. -/
theorem runs_append_cons {c : Char} (hc : isKeywordChar c = false) (s t : Text) :
    runs (s ++ c :: t) = runs s ++ runs t := by
  rw [runs, splitWhere_append_of_pos s (by simp [hc]) t, List.filter_append]
  rfl

theorem runs_cons {c : Char} (hc : isKeywordChar c = false) (t : Text) : runs (c :: t) = runs t :=
  runs_append_cons hc [] t

theorem runs_of_isKeyword {word : Text} (h : IsKeyword word) : runs word = [word] := by
  rw [runs, splitWhere_eq_singleton fun c hc => by simp [h.chars c hc]]
  simp [h.filled]

/-! ### Keywords -/

theorem lower_of_isKeyword {word : Text} (h : IsKeyword word) : word.lower = word := by
  calc word.lower
    _ = word.flatMap fun c => [c] :=
      List.flatMap_congr fun c hc => lowerChar_of_isKeywordChar (h.chars c hc)
    _ = word := List.flatMap_singleton' word

theorem keywords_of_isKeyword {word : Text} (h : IsKeyword word) : word.keywords = [word] := by
  rw [keywords_eq, lower_of_isKeyword h, runs_of_isKeyword h]

theorem isKeyword_of_mem_keywords {t word : Text} (h : word ∈ t.keywords) : IsKeyword word :=
  isKeyword_of_mem_runs h

/-- A hyphen separates keywords. -/
theorem keywords_append_hyphen (s t : Text) :
    (s ++ '-' :: t).keywords = s.keywords ++ t.keywords := by
  rw [keywords_eq, lower, List.flatMap_append]
  exact runs_append_cons (by decide) s.lower t.lower

section
variable {words : List Text} (hWords : ∀ word ∈ words, IsKeyword word)
include hWords

theorem keywords_joinWith : (joinWith ['-'] words).keywords = words := by
  induction words with
  | nil => rfl
  | cons word words ih =>
      obtain ⟨hWord, hRest⟩ := List.forall_mem_cons.1 hWords
      by_cases hMore : words = []
      · subst hMore
        exact keywords_of_isKeyword hWord
      · rw [joinWith_cons _ _ hMore, List.append_assoc, List.singleton_append,
          keywords_append_hyphen, keywords_of_isKeyword hWord, ih hRest, List.singleton_append]

theorem joinWith_hyphen_ne_nil (hFilled : words ≠ []) : joinWith ['-'] words ≠ [] := by
  intro hNone
  have hKeywords := keywords_joinWith hWords
  rw [hNone] at hKeywords
  exact hFilled hKeywords.symm

end

end Text

/-! ### Beginnings -/

open Text

theorem IsKeyword.isHyphenated_take {word : Text} (h : IsKeyword word) (n : Nat) :
    IsHyphenated (word.take n) := by
  by_cases hNone : word.take n = []
  · exact ⟨[], by simp, hNone⟩
  · have hChars : ∀ c ∈ word.take n, isKeywordChar c :=
      fun c hc => h.chars c (List.mem_of_mem_take hc)
    exact ⟨[word.take n], List.forall_mem_singleton.2 ⟨hNone, hChars⟩, rfl⟩

namespace IsHyphenated

theorem cons {word t : Text} (hWord : IsKeyword word) (h : IsHyphenated t) (hFilled : t ≠ []) :
    IsHyphenated (word ++ '-' :: t) := by
  obtain ⟨words, hWords, rfl⟩ := h
  have hMore : words ≠ [] := by
    rintro rfl
    exact hFilled rfl
  refine ⟨word :: words, List.forall_mem_cons.2 ⟨hWord, hWords⟩, ?_⟩
  rw [joinWith_cons _ _ hMore, List.append_assoc, List.singleton_append]

theorem ne_hyphen_of_mem_head? {t : Text} (h : IsHyphenated t) : ∀ c ∈ t.head?, c ≠ '-' := by
  obtain ⟨words, hWords, rfl⟩ := h
  intro c hc
  apply ne_hyphen_of_mem_keyword hWords
  exact head?_joinWith ['-'] (fun word hWord => (hWords word hWord).filled) c hc

theorem ne_hyphen_of_mem_getLast? {t : Text} (h : IsHyphenated t) : ∀ c ∈ t.getLast?, c ≠ '-' := by
  obtain ⟨words, hWords, rfl⟩ := h
  intro c hc
  apply ne_hyphen_of_mem_keyword hWords
  exact getLast?_joinWith ['-'] (fun word hWord => (hWords word hWord).filled) c hc

end IsHyphenated

/-- A beginning of keywords joined by hyphens is made up of keywords again, or else it ends right
behind one of the hyphens. -/
theorem isHyphenated_take_or {words : List Text} (hWords : ∀ word ∈ words, IsKeyword word)
    (n : Nat) :
    IsHyphenated ((joinWith ['-'] words).take n) ∨
      ∃ first rest, words = first ++ rest ∧ first ≠ [] ∧ rest ≠ [] ∧
        (joinWith ['-'] first).length + 1 = n := by
  induction words generalizing n with
  | nil => exact .inl ⟨[], hWords, List.take_nil⟩
  | cons word words ih =>
      obtain ⟨hWord, hRest⟩ := List.forall_mem_cons.1 hWords
      by_cases hMore : words = []
      · subst hMore
        exact .inl (hWord.isHyphenated_take n)
      · rw [joinWith_cons _ _ hMore, List.append_assoc, List.singleton_append]
        -- the beginning ends within the first keyword, right behind its hyphen, or further on
        rcases Nat.lt_or_ge word.length n with hLess | hWithin
        · obtain ⟨m, rfl⟩ := Nat.exists_eq_add_of_lt hLess
          cases m with
          | zero => exact .inr ⟨[word], words, rfl, List.cons_ne_nil word [], hMore, rfl⟩
          | succ m =>
              rcases ih hRest (m + 1) with hTake | ⟨first, rest, rfl, hFirst, hLast, hLength⟩
              · have hFilled : (joinWith ['-'] words).take (m + 1) ≠ [] := fun hNone =>
                  joinWith_hyphen_ne_nil hRest hMore
                    ((List.take_eq_nil_iff.1 hNone).resolve_left (by simp))
                rw [Nat.add_assoc, List.take_length_add_append, List.take_succ_cons]
                exact .inl (hTake.cons hWord hFilled)
              · refine .inr ⟨word :: first, rest, rfl, List.cons_ne_nil word first, hLast, ?_⟩
                rw [joinWith_cons _ _ hFirst]
                simp only [List.length_append, List.length_singleton]
                omega
        · rw [List.take_append_of_le_length hWithin]
          exact .inl (hWord.isHyphenated_take n)

end Composer
