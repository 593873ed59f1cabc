import Composer.Proofs.Reference.Ranking

/-!
What a query finds. The best matches are the beginning of the dataset in rank order, as far as the
songs share a keyword with the query; the songs for contrast are the least in the order of contrast
among those that differ from every match. A match is set aside by its place, and not because it
agrees with itself: a song whose tempo is not a number does not.
-/

namespace Composer

section
variable {α : Type} {p : α → Bool}

/-- Where an item that passes stands behind items that pass only, filtering a beginning shortens
it. -/
theorem filter_take_of_pairwise {l : List α} (h : l.Pairwise fun a b => p b → p a) (count : Nat) :
    (l.take count).filter p = l.take (min count (l.countP p)) := by
  induction l generalizing count with
  | nil => simp
  | cons a l ih =>
      obtain ⟨hFirst, hRest⟩ := List.pairwise_cons.1 h
      cases count with
      | zero => simp
      | succ count =>
          by_cases ha : p a
          · simp [ha, ih hRest, Nat.succ_min_succ]
          · have hNone : ∀ b ∈ l, ¬p b := fun b hb hPasses => ha (hFirst b hb hPasses)
            have hCount : l.countP p = 0 := List.countP_eq_zero.2 hNone
            have hFilter : (l.take count).filter p = [] :=
              List.filter_eq_nil_iff.2 fun b hb => hNone b (List.mem_of_mem_take hb)
            simp [ha, hCount, hFilter]

end

namespace ReferenceLibrary

/-- The songs of a dataset, each with its place in the file, in rank order; songs of equal rank are
in the order of the file. -/
structure IsRankOrder (query : Text) (songs : List ReferenceSong)
    (order : List (ReferenceSong × Nat)) : Prop where
  perm : order.Perm songs.zipIdx
  sorted : order.Pairwise fun s t => toLex (rank query s.1, s.2) < toLex (rank query t.1, t.2)

theorem IsRankOrder.songs_perm {query : Text} {songs : List ReferenceSong}
    {order : List (ReferenceSong × Nat)} (h : IsRankOrder query songs order) :
    (order.map Prod.fst).Perm songs := by
  simpa using h.perm.map Prod.fst

/-- A song as it is found for contrast. -/
def asContrast (query : Text) (s : ReferenceSong) : Retrieved :=
  { asMatch query s with diverse := true }

/-- A dataset taken apart: the matches, the songs that agree with one of them (`twins`), and the
others, of which at most `count` are shown and the rest is `left`. -/
structure IsContrast (songs first twins shown left : List ReferenceSong) (count : Nat) : Prop where
  perm : (first ++ twins ++ (shown ++ left)).Perm songs
  agree : ∀ s ∈ twins, ∃ t ∈ first, t.agrees s
  differ : ∀ s ∈ shown ++ left, ∀ t ∈ first, ¬t.agrees s
  length : shown.length = min count (shown ++ left).length
  sorted : shown.Pairwise fun s t =>
    contrast (first.flatMap (·.genres)).toFinset s ≤ contrast (first.flatMap (·.genres)).toFinset t
  least : ∀ s ∈ shown, ∀ t ∈ left,
    ¬contrast (first.flatMap (·.genres)).toFinset t < contrast (first.flatMap (·.genres)).toFinset s

section
variable (query : Text) (songs first rest : List ReferenceSong)

theorem matching_map_asMatch {order : List (ReferenceSong × Nat)}
    (hOrder : IsRankOrder query songs order) (count : Nat) :
    matching count ((order.map Prod.fst).map (asMatch query)) =
      ((order.map Prod.fst).take
        (min count (songs.countP fun s => 0 < overlap query s))).map (asMatch query) := by
  have hSorted : (order.map Prod.fst).Pairwise fun s t =>
      decide (0 < overlap query t) → decide (0 < overlap query s) := by
    rw [List.pairwise_map]
    refine hOrder.sorted.imp fun {s t} hLess => ?_
    have hRank : rank query s.1 ≤ rank query t.1 := by
      rcases Prod.Lex.toLex_lt_toLex.1 hLess with hRank | hRank
      · exact hRank.le
      · exact hRank.1.le
    rw [rank_le_rank_iff] at hRank
    simp only [decide_eq_true_eq]
    omega
  have hScore : ((fun r : Retrieved => decide (0 < r.score)) ∘ asMatch query) =
      fun s => decide (0 < overlap query s) := rfl
  rw [matching, upTo, if_pos (Int.natCast_nonneg count), Int.toNat_natCast, ← List.map_take,
    List.filter_map, hScore, filter_take_of_pairwise hSorted, hOrder.songs_perm.countP_eq]

/-- The songs that agree with none of the given ones. -/
def unlike (first rest : List ReferenceSong) : List ReferenceSong :=
  rest.filter fun s => !first.any fun t => t.agrees s

theorem others_map_asMatch :
    others (first.map (asMatch query)) ((first ++ rest).map (asMatch query)) =
      (unlike first rest).map (asMatch query) := by
  have hAgrees : ((fun r : Retrieved =>
      !(first.map (asMatch query)).any fun s => s.song.agrees r.song) ∘ asMatch query) =
        fun s => !first.any fun t => t.agrees s := by
    funext s
    rw [Function.comp_apply, List.any_map]
    rfl
  rw [others, List.map_append, List.length_map, ← List.length_map (asMatch query),
    List.drop_left, List.filter_map, hAgrees, unlike]

/-- The songs for contrast, sorted. -/
def byContrast (first rest : List ReferenceSong) : List ReferenceSong :=
  (unlike first rest).mergeSort fun s t =>
    decide (contrast (first.flatMap (·.genres)).toFinset s ≤
      contrast (first.flatMap (·.genres)).toFinset t)

theorem mergeSort_map_asMatch :
    ((unlike first rest).map (asMatch query)).mergeSort
        (contrastsBefore ((first.map (asMatch query)).flatMap (·.song.genres))) =
      (byContrast first rest).map (asMatch query) := by
  have hGenres : (first.map (asMatch query)).flatMap (·.song.genres) = first.flatMap (·.genres) :=
    List.flatMap_map ..
  rw [hGenres, byContrast, List.map_mergeSort fun s _ t _ =>
    (contrastsBefore_asMatch (first.flatMap (·.genres)) query s t).symm]

/-- The songs beside the matches are taken apart by agreement, and those that agree with none by
contrast. -/
theorem isContrast_byContrast (hSongs : (first ++ rest).Perm songs) (count : Nat) :
    IsContrast songs first (rest.filter fun s => first.any fun t => t.agrees s)
      ((byContrast first rest).take count) ((byContrast first rest).drop count) count := by
  have hPerm : (byContrast first rest).Perm (unlike first rest) := List.mergeSort_perm _ _
  have hSorted : (byContrast first rest).Pairwise fun s t =>
      contrast (first.flatMap (·.genres)).toFinset s ≤
        contrast (first.flatMap (·.genres)).toFinset t :=
    pairwise_mergeSort_key (contrast (first.flatMap (·.genres)).toFinset) (unlike first rest)
  constructor
  case perm =>
    rw [List.take_append_drop, List.append_assoc]
    exact (((hPerm.append_left _).trans (List.filter_append_perm _ rest)).append_left first).trans
      hSongs
  case agree =>
    intro s hs
    simpa using (List.mem_filter.1 hs).2
  case differ =>
    intro s hs t ht hAgrees
    rw [List.take_append_drop, hPerm.mem_iff, unlike, List.mem_filter, Bool.not_eq_true',
      List.any_eq_false] at hs
    exact hs.2 t ht hAgrees
  case length => rw [List.take_append_drop, List.length_take]
  case sorted => exact hSorted.take
  case least =>
    intro s hs t ht
    rw [← List.take_append_drop count (byContrast first rest), List.pairwise_append] at hSorted
    exact (hSorted.2.2 s hs t ht).not_gt

end

/-- A query finds the best matches, and what differs from them most. The matches are the first songs
in rank order, `count` of them or as many as share a keyword with the query; without a match nothing
is found. The songs for contrast behind them agree with none of the matches and are the least such
songs in the order of contrast, `diverse` of them or as many as there are. -/
theorem retrieve_selects (library : ReferenceLibrary) (query : Text) (count : Nat) (diverse : Int) :
    ∃ order first twins shown left, IsRankOrder query library.songs order ∧
      first = (order.map Prod.fst).take
        (min count (library.songs.countP fun s => 0 < overlap query s)) ∧
      library.retrieve query count diverse =
        first.map (asMatch query) ++ shown.map (asContrast query) ∧
      (first = [] → shown = []) ∧
      (first ≠ [] → IsContrast library.songs first twins shown left (max 0 diverse).toNat) := by
  obtain ⟨order, hPerm, hSorted, hSort⟩ := exists_order_mergeSort (rank query) library.songs
  have hOrder : IsRankOrder query library.songs order := ⟨hPerm, hSorted⟩
  have hRanked : ranked query library.songs = (order.map Prod.fst).map (asMatch query) := by
    rw [ranked_eq, hSort]
  generalize hFirst : (order.map Prod.fst).take
    (min count (library.songs.countP fun s => 0 < overlap query s)) = first
  have hMatching : matching count (ranked query library.songs) = first.map (asMatch query) := by
    rw [hRanked, matching_map_asMatch query library.songs hOrder, hFirst]
  obtain ⟨rest, hRest⟩ : first <+: order.map Prod.fst := hFirst ▸ List.take_prefix _ _
  have hCount : (max 0 diverse).toNat = diverse.toNat := by omega
  by_cases hNone : first = []
  · refine ⟨order, first, [], [], [], hOrder, hFirst.symm, ?_, fun _ => rfl,
      fun hSome => absurd hNone hSome⟩
    simp [retrieve, hMatching, hNone]
  · have hContrast := isContrast_byContrast library.songs first rest
      (hRest ▸ hOrder.songs_perm) (max 0 diverse).toNat
    refine ⟨order, first, _, _, _, hOrder, hFirst.symm, ?_, fun h => absurd h hNone,
      fun _ => hContrast⟩
    have hFilled : (first.map (asMatch query)).isEmpty = false := by simpa using hNone
    rw [retrieve, hMatching, hRanked, ← hRest, others_map_asMatch, hCount]
    simp only [hFilled, Bool.false_eq_true, if_false, mergeSort_map_asMatch, ← List.map_take,
      List.map_map]
    rfl

end ReferenceLibrary

end Composer
