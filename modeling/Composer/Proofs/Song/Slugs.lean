import Composer.Proofs.Text.Keywords
import Composer.Song.Name

/-!
Slugs of titles. Step by step, a title is put in lower case, every run of characters that are in no
keyword becomes one hyphen, the hyphens at the two ends go, and the rest is cut. Without the cut
this is the keywords joined by hyphens, of which a slug is the same again. A cut within a keyword
leaves such a text, too, but the limit can also fall right behind a hyphen; the cut is the last
step, so nothing takes this hyphen away, and a slug of the slug is shorter.
-/

namespace Composer

namespace Text

/-! ### One step after another -/

/-- The text with one hyphen for every longest run of characters that are in no keyword; `inGap`
tells whether such a run is going on. -/
def hyphenated : (inGap : Bool) → Text → Text
  | _, [] => []
  | inGap, c :: t =>
    if isKeywordChar c then c :: hyphenated false t
    else if inGap then hyphenated true t
    else '-' :: hyphenated true t

theorem hyphenated_cons {c : Char} (hc : isKeywordChar c) (inGap : Bool) (t : Text) :
    hyphenated inGap (c :: t) = c :: hyphenated false t := by
  rw [hyphenated, if_pos hc]

theorem hyphenated_cons_gap {c : Char} (hc : isKeywordChar c = false) (t : Text) :
    hyphenated true (c :: t) = hyphenated true t ∧
      hyphenated false (c :: t) = '-' :: hyphenated true t := by
  simp [hyphenated, hc]

/-- Words joined by hyphens, with nothing behind them but hyphens. -/
def Joins (words : List Text) (t : Text) : Prop :=
  ∃ rest, t = joinWith ['-'] words ++ rest ∧ ∀ c ∈ rest, c = '-'

theorem Joins.cons {words : List Text} {t : Text} (word : Text) (h : Joins words t) :
    Joins (word :: words) (word ++ '-' :: t) := by
  obtain ⟨rest, rfl, hRest⟩ := h
  by_cases hMore : words = []
  · subst hMore
    exact ⟨'-' :: rest, rfl, List.forall_mem_cons.2 ⟨rfl, hRest⟩⟩
  · refine ⟨rest, ?_, hRest⟩
    rw [joinWith_cons _ _ hMore]
    simp only [List.append_assoc, List.cons_append, List.nil_append]

/-- What follows a gap becomes its runs; what follows the beginning of a word, the runs of that word
and what follows. -/
theorem joins_hyphenated (t : Text) :
    Joins (runs t) (hyphenated true t) ∧
      ∀ word, IsKeyword word → Joins (runs (word ++ t)) (word ++ hyphenated false t) := by
  induction t with
  | nil =>
      refine ⟨⟨[], rfl, by simp⟩, fun word hWord => ?_⟩
      rw [List.append_nil, runs_of_isKeyword hWord]
      exact ⟨[], rfl, by simp⟩
  | cons c t ih =>
      obtain ⟨hGap, hWithin⟩ := ih
      cases hc : isKeywordChar c with
      | true =>
          have hLetter := isKeyword_singleton hc
          rw [hyphenated_cons hc, hyphenated_cons hc]
          refine ⟨hWithin [c] hLetter, fun word hWord => ?_⟩
          -- the letter goes on with the word
          have hLonger : IsKeyword (word ++ [c]) :=
            ⟨by simp, List.forall_mem_append.2 ⟨hWord.chars, hLetter.chars⟩⟩
          simpa using hWithin (word ++ [c]) hLonger
      | false =>
          obtain ⟨hSame, hHyphen⟩ := hyphenated_cons_gap hc t
          rw [hSame, hHyphen, runs_cons hc]
          refine ⟨hGap, fun word hWord => ?_⟩
          rw [runs_append_cons hc, runs_of_isKeyword hWord]
          exact hGap.cons word

/-- A gap at the start becomes one hyphen. -/
theorem exists_hyphenated_eq (t : Text) :
    ∃ before rest, hyphenated false t = before ++ joinWith ['-'] (runs t) ++ rest ∧
      (∀ c ∈ before, c = '-') ∧ ∀ c ∈ rest, c = '-' := by
  cases t with
  | nil => exact ⟨[], [], rfl, by simp, by simp⟩
  | cons c t =>
      obtain ⟨hGap, hWithin⟩ := joins_hyphenated t
      cases hc : isKeywordChar c with
      | true =>
          obtain ⟨rest, hText, hRest⟩ := hWithin [c] (isKeyword_singleton hc)
          refine ⟨[], rest, ?_, by simp, hRest⟩
          rw [hyphenated_cons hc]
          exact hText
      | false =>
          obtain ⟨rest, hText, hRest⟩ := hGap
          refine ⟨['-'], rest, ?_, by simp, hRest⟩
          rw [(hyphenated_cons_gap hc t).2, hText, runs_cons hc]
          rfl

theorem trimWhere_hyphenated (t : Text) :
    trimWhere (· == '-') (hyphenated false t) = joinWith ['-'] (runs t) := by
  obtain ⟨before, rest, hText, hBefore, hRest⟩ := exists_hyphenated_eq t
  have hJoined : IsHyphenated (joinWith ['-'] (runs t)) :=
    ⟨runs t, fun word hWord => isKeyword_of_mem_runs hWord, rfl⟩
  rw [hText]
  apply trimWhere_of_padded
  · simpa using hBefore
  · simpa using hRest
  · simpa using hJoined.ne_hyphen_of_mem_head?
  · simpa using hJoined.ne_hyphen_of_mem_getLast?

end Text

namespace Song

/-- The slug of a title, one step after another. -/
theorem slug_eq_steps (title : Text) :
    slug title =
      (Text.trimWhere (· == '-') (Text.hyphenated false title.lower)).take slugLimit := by
  rw [Text.trimWhere_hyphenated]
  rfl

/-! ### Well-formed slugs -/

/-- What a slug is to be: keywords with single hyphens between them, no hyphen at either end, and no
more characters than the limit. With no keywords it is empty. -/
structure WellFormedSlug (s : Text) : Prop where
  hyphenated : IsHyphenated s
  head?_ne : s.head? ≠ some '-'
  getLast?_ne : s.getLast? ≠ some '-'
  length_le : s.length ≤ slugLimit

theorem wellFormedSlug_of_isHyphenated {s : Text} (h : IsHyphenated s)
    (hFits : s.length ≤ slugLimit) : WellFormedSlug s where
  hyphenated := h
  head?_ne hHead := h.ne_hyphen_of_mem_head? '-' hHead rfl
  getLast?_ne hLast := h.ne_hyphen_of_mem_getLast? '-' hLast rfl
  length_le := hFits

theorem WellFormedSlug.slug_eq_self {s : Text} (h : WellFormedSlug s) : slug s = s := by
  obtain ⟨words, hWords, rfl⟩ := h.hyphenated
  rw [slug, Text.keywords_joinWith hWords, List.take_of_length_le h.length_le]

theorem slug_append_hyphen (s : Text) : slug (s ++ ['-']) = slug s := by
  have hNone : Text.keywords [] = [] := rfl
  rw [slug, Text.keywords_append_hyphen, hNone, List.append_nil, slug]

/-- The limit falls right behind a hyphen: some of the title's keywords, the first of them but not
all, have one character less than the limit when they are joined. -/
def CutBehindHyphen (title : Text) : Prop :=
  ∃ first rest, title.keywords = first ++ rest ∧ rest ≠ [] ∧
    (Text.joinWith ['-'] first).length + 1 = slugLimit

/-- A slug that is cut behind a hyphen is a well-formed one and that hyphen. -/
theorem CutBehindHyphen.exists_slug_eq {title : Text} (h : CutBehindHyphen title) :
    ∃ s, WellFormedSlug s ∧ s.length + 1 = slugLimit ∧ slug title = s ++ ['-'] := by
  obtain ⟨first, rest, hKeywords, hRest, hLength⟩ := h
  have hWords : ∀ word ∈ first, IsKeyword word := fun word hWord =>
    Text.isKeyword_of_mem_keywords (hKeywords ▸ List.mem_append_left rest hWord)
  have hFirst : first ≠ [] := by
    rintro rfl
    exact absurd hLength (by decide)
  refine ⟨Text.joinWith ['-'] first, ?_, hLength, ?_⟩
  · exact wellFormedSlug_of_isHyphenated ⟨first, hWords, rfl⟩ (by omega)
  · rw [slug, hKeywords, Text.joinWith_append _ hFirst hRest, ← hLength]
    exact List.take_left' (by simp)

theorem wellFormedSlug_slug {title : Text} (h : ¬CutBehindHyphen title) :
    WellFormedSlug (slug title) := by
  have hWords : ∀ word ∈ title.keywords, IsKeyword word :=
    fun word hWord => Text.isKeyword_of_mem_keywords hWord
  rcases isHyphenated_take_or hWords slugLimit with hTake | ⟨first, rest, hCut⟩
  · exact wellFormedSlug_of_isHyphenated hTake (List.length_take_le _ _)
  · obtain ⟨hKeywords, -, hRest, hLength⟩ := hCut
    exact absurd ⟨first, rest, hKeywords, hRest, hLength⟩ h

/-- The slug of a title is well formed, and its own slug, exactly when the limit does not fall right
behind a hyphen. When it does, the slug is a well-formed one and a hyphen at the limit, which the
slug of the slug is without. -/
theorem slug_wellFormed_iff (title : Text) :
    (WellFormedSlug (slug title) ∧ slug (slug title) = slug title ↔ ¬CutBehindHyphen title) ∧
    (CutBehindHyphen title → ∃ s, WellFormedSlug s ∧ s.length + 1 = slugLimit ∧
      slug title = s ++ ['-'] ∧ slug (slug title) = s) := by
  refine ⟨⟨?_, fun h => ?_⟩, fun h => ?_⟩
  · rintro ⟨hFormed, -⟩ hCut
    obtain ⟨s, -, -, hSlug⟩ := hCut.exists_slug_eq
    exact hFormed.getLast?_ne (by simp [hSlug])
  · have hFormed := wellFormedSlug_slug h
    exact ⟨hFormed, hFormed.slug_eq_self⟩
  · obtain ⟨s, hFormed, hLength, hSlug⟩ := h.exists_slug_eq
    refine ⟨s, hFormed, hLength, hSlug, ?_⟩
    rw [hSlug, slug_append_hyphen, hFormed.slug_eq_self]

def nightBusTitle : Text := "Slow dub techno for the last night bus home along the canal (slow mix)"

def nightBusSlug : Text := "slow-dub-techno-for-the-last-night-bus-home-along-the-canal"

/-- The limit falls right behind a hyphen: the slug ends with it, and the slug of the slug does
not. -/
theorem slug_keeps_hyphen :
    slug nightBusTitle = nightBusSlug ++ ['-'] ∧ ¬WellFormedSlug (slug nightBusTitle) ∧
    slug (slug nightBusTitle) = nightBusSlug ∧
    slug (slug nightBusTitle) ≠ slug nightBusTitle := by
  have hSlug : slug nightBusTitle = nightBusSlug ++ ['-'] := by decide +kernel
  have hAgain : slug (nightBusSlug ++ ['-']) = nightBusSlug := by decide +kernel
  rw [hSlug, hAgain]
  exact ⟨rfl, fun h => h.getLast?_ne (by simp), rfl, by simp⟩

end Song

end Composer
