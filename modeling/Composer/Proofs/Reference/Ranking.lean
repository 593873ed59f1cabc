import Composer.Reference.Library
import Mathlib.Data.Char
import Mathlib.Data.Finset.Card
import Mathlib.Data.List.Lex
import Mathlib.Data.List.Sort
import Mathlib.Data.Prod.Lex

/-!
The two orders of retrieval. Songs are ranked by how many different keywords they share with a
query, the most first, and contrasted by how many different genres they share with the best matches,
the fewest first; equal songs go by title. Both orders are linear orders of keys, so sorting by them
is sorting by a key, and what keeps equal keys apart is the place in the file alone.
-/

namespace Composer

/-! ### Texts and sets -/

/-- Texts are ordered as lists of code points are. -/
theorem Text.atMost_iff (s t : Text) : s.atMost t ↔ s ≤ t := by
  rw [← not_lt]
  induction s generalizing t with
  | nil => simp [atMost]
  | cons a s ih =>
      cases t with
      | nil => simp [atMost]
      | cons b t =>
          rw [atMost, List.cons_lt_cons_iff]
          rcases lt_trichotomy a b with hLess | rfl | hGreater
          · simp [hLess, hLess.not_gt, hLess.ne']
          · simp [ih]
          · simp [hGreater, hGreater.not_gt, hGreater.ne']

section
variable {α : Type} [BEq α] [LawfulBEq α]

theorem nodup_eraseDups (l : List α) : l.eraseDups.Nodup := by
  induction hLength : l.length using Nat.strong_induction_on generalizing l with
  | _ n ih =>
      cases l with
      | nil => exact List.nodup_nil
      | cons a l =>
          rw [List.length_cons] at hLength
          have hShort := List.length_filter_le (fun b => !b == a) l
          rw [List.eraseDups_cons, List.nodup_cons, List.mem_eraseDups]
          exact ⟨by simp, ih _ (by omega) _ rfl⟩

/-- Counting the different items of one list that another has is counting what the two share. -/
theorem countP_eraseDups_contains [DecidableEq α] (l m : List α) :
    l.eraseDups.countP m.contains = (l.toFinset ∩ m.toFinset).card := by
  have hShared : (l.eraseDups.filter m.contains).toFinset = l.toFinset ∩ m.toFinset := by
    ext a
    simp
  rw [List.countP_eq_length_filter, ← hShared,
    List.toFinset_card_of_nodup ((nodup_eraseDups l).filter _)]

end

/-! ### Sorting by a key -/

section
variable {α κ : Type} [LinearOrder κ] (key : α → κ)

theorem pairwise_mergeSort_key (l : List α) :
    (l.mergeSort fun a b => decide (key a ≤ key b)).Pairwise fun a b => key a ≤ key b := by
  have hPairwise : (l.mergeSort fun a b => decide (key a ≤ key b)).Pairwise
      fun a b => decide (key a ≤ key b) :=
    List.pairwise_mergeSort (fun a b c => by simpa using le_trans)
      (fun a b => by simpa using le_total _ _) l
  simpa using hPairwise

/-- Sorting by a key puts the items in the order of their keys, and equal ones in the order in which
they were. -/
theorem exists_order_mergeSort (l : List α) :
    ∃ order : List (α × Nat), order.Perm l.zipIdx ∧
      order.Pairwise (fun a b => toLex (key a.1, a.2) < toLex (key b.1, b.2)) ∧
      l.mergeSort (fun a b => decide (key a ≤ key b)) = order.map Prod.fst := by
  set le : α × Nat → α × Nat → Bool := fun a b =>
    decide (toLex (key a.1, a.2) ≤ toLex (key b.1, b.2)) with hLe
  have hSame : List.zipIdxLE (fun a b => decide (key a ≤ key b)) = le := by
    funext a b
    simp only [List.zipIdxLE, hLe, decide_eq_true_eq, Prod.Lex.toLex_le_toLex]
    rcases lt_trichotomy (key a.1) (key b.1) with hLess | hEqual | hGreater
    · simp [hLess, hLess.le, hLess.not_ge]
    · simp [hEqual]
    · simp [hGreater.not_ge, hGreater.not_gt, hGreater.ne']
  have hPerm := List.mergeSort_perm l.zipIdx le
  refine ⟨l.zipIdx.mergeSort le, hPerm, ?_, ?_⟩
  · have hSorted : (l.zipIdx.mergeSort le).Pairwise
        fun a b => toLex (key a.1, a.2) ≤ toLex (key b.1, b.2) :=
      pairwise_mergeSort_key (fun a => toLex (key a.1, a.2)) l.zipIdx
    have hPlaces : (l.zipIdx.mergeSort le).Pairwise fun a b => a.2 ≠ b.2 := by
      have hNodup : ((l.zipIdx.mergeSort le).map Prod.snd).Nodup := by
        rw [(hPerm.map Prod.snd).nodup_iff, List.zipIdx_map_snd]
        exact List.nodup_range'
      exact List.pairwise_map.1 hNodup
    refine (hSorted.and hPlaces).imp fun {a b} h => lt_of_le_of_ne h.1 fun hEqual => h.2 ?_
    exact congrArg (fun place => (ofLex place).2) hEqual
  · rw [← hSame]
    exact List.mergeSort_zipIdx.symm

/-- Items with different keys are sorted in one way only, however they were arranged before. -/
theorem mergeSort_eq_of_perm {l m : List α} (h : l.Perm m)
    (hKeys : ∀ a ∈ l, ∀ b ∈ l, key a = key b → a = b) :
    l.mergeSort (fun a b => decide (key a ≤ key b)) =
      m.mergeSort (fun a b => decide (key a ≤ key b)) := by
  refine List.Perm.eq_of_pairwise (fun a b ha hb hab hba => ?_) (pairwise_mergeSort_key key l)
    (pairwise_mergeSort_key key m)
    (((List.mergeSort_perm l _).trans h).trans (List.mergeSort_perm m _).symm)
  rw [List.mem_mergeSort] at ha hb
  exact hKeys a ha b (h.mem_iff.2 hb) (le_antisymm hab hba)

end

namespace ReferenceLibrary

/-! ### Ranks -/

/-- How many different keywords a query and a song share. -/
def overlap (query : Text) (s : ReferenceSong) : Nat :=
  (query.keywords.toFinset ∩ s.keywords.toFinset).card

theorem score_eq_overlap (query : Text) (s : ReferenceSong) : score query s = overlap query s :=
  countP_eraseDups_contains query.keywords s.keywords

/-- What songs are ranked by: more shared keywords first, then the title. -/
def rank (query : Text) (s : ReferenceSong) : ℕᵒᵈ ×ₗ Text :=
  toLex (OrderDual.toDual (overlap query s), s.title)

theorem rank_le_rank_iff (query : Text) (s t : ReferenceSong) :
    rank query s ≤ rank query t ↔
      overlap query t < overlap query s ∨
        overlap query s = overlap query t ∧ s.title ≤ t.title := by
  simp [rank, Prod.Lex.toLex_le_toLex]

/-- A song as it is found for a query. -/
def asMatch (query : Text) (s : ReferenceSong) : Retrieved := ⟨s, overlap query s, false⟩

theorem ranksBefore_asMatch (query : Text) (s t : ReferenceSong) :
    ranksBefore (asMatch query s) (asMatch query t) = decide (rank query s ≤ rank query t) := by
  rw [Bool.eq_iff_iff, decide_eq_true_eq, rank_le_rank_iff]
  simp only [ranksBefore, Bool.or_eq_true, Bool.and_eq_true, decide_eq_true_eq, beq_iff_eq,
    Text.atMost_iff]
  rfl

/-- A ranking is the songs sorted by their ranks. -/
theorem ranked_eq (query : Text) (songs : List ReferenceSong) :
    ranked query songs =
      (songs.mergeSort fun s t => decide (rank query s ≤ rank query t)).map (asMatch query) := by
  have hMatch : (fun s => (⟨s, score query s, false⟩ : Retrieved)) = asMatch query := by
    funext s
    rw [score_eq_overlap, asMatch]
  rw [ranked, hMatch, List.map_mergeSort fun s _ t _ => (ranksBefore_asMatch query s t).symm]

/-! ### Contrast -/

/-- What songs are contrasted by: fewer genres shared with the chosen ones first, then the title. -/
def contrast (chosen : Finset Text) (s : ReferenceSong) : ℕ ×ₗ Text :=
  toLex ((chosen ∩ s.genres.toFinset).card, s.title)

theorem contrastsBefore_asMatch (chosen : List Text) (query : Text) (s t : ReferenceSong) :
    contrastsBefore chosen (asMatch query s) (asMatch query t) =
      decide (contrast chosen.toFinset s ≤ contrast chosen.toFinset t) := by
  have hShared (u : ReferenceSong) :
      sharedGenres chosen u = (chosen.toFinset ∩ u.genres.toFinset).card := by
    rw [Finset.inter_comm]
    exact countP_eraseDups_contains u.genres chosen
  rw [Bool.eq_iff_iff, decide_eq_true_eq]
  simp only [contrastsBefore, contrast, hShared, Bool.or_eq_true, Bool.and_eq_true,
    decide_eq_true_eq, beq_iff_eq, Text.atMost_iff, Prod.Lex.toLex_le_toLex]
  rfl

end ReferenceLibrary

end Composer
