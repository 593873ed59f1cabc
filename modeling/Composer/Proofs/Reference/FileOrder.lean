import Composer.Proofs.Reference.Ranking
import Composer.Prompt.Task

/-!
The order of the songs in their file. It decides only between songs with one title, so a dataset
whose titles are distinct may be rearranged: every query finds the same songs in the same order, and
every prompt shows the same. Of a query in turn only its keywords count.
-/

namespace Composer

namespace ReferenceLibrary

theorem overlap_congr {query other : Text} (h : query.keywords.toFinset = other.keywords.toFinset) :
    overlap query = overlap other := by
  funext s
  rw [overlap, overlap, h]

section
variable {songs rearranged : List ReferenceSong}

/-- Songs with distinct titles have distinct ranks. -/
theorem rank_injOn (hTitles : (songs.map (·.title)).Nodup) (query : Text) :
    ∀ s ∈ songs, ∀ t ∈ songs, rank query s = rank query t → s = t := by
  intro s hs t ht hRank
  have hTitle : s.title = t.title := congrArg (fun place => (ofLex place).2) hRank
  exact List.inj_on_of_nodup_map hTitles hs ht hTitle

theorem ranked_eq_of_perm (hSongs : songs.Perm rearranged)
    (hTitles : (songs.map (·.title)).Nodup) {query other : Text}
    (hQuery : query.keywords.toFinset = other.keywords.toFinset) :
    ranked query songs = ranked other rearranged := by
  have hRank : rank query = rank other := by
    funext s
    rw [rank, rank, overlap_congr hQuery]
  have hMatch : asMatch query = asMatch other := by
    funext s
    rw [asMatch, asMatch, overlap_congr hQuery]
  rw [ranked_eq, ranked_eq, ← hRank, ← hMatch,
    mergeSort_eq_of_perm (rank query) hSongs (rank_injOn hTitles query)]

end

section
variable {library rearranged : ReferenceLibrary}

/-- What is found depends on the ranking alone. -/
theorem retrieve_congr {query other : Text}
    (h : ranked query library.songs = ranked other rearranged.songs) (count diverse : Int) :
    library.retrieve query count diverse = rearranged.retrieve other count diverse := by
  rw [retrieve, retrieve, h]

/-- The order of a dataset does not matter where its titles are distinct: whatever is asked for, the
same is found, in the same order, and so it is for every query with the same keywords. With the same
style priors each request is then given the same prompt. -/
theorem retrieve_independent_of_order (hSongs : library.songs.Perm rearranged.songs)
    (hTitles : (library.songs.map (·.title)).Nodup) :
    (∀ query other : Text, query.keywords.toFinset = other.keywords.toFinset →
      ∀ count diverse : Int,
        library.retrieve query count diverse = rearranged.retrieve other count diverse) ∧
    (library.priors = rearranged.priors → ∀ request : Text,
      Prompt.new request (some (.ofLibrary library)) =
        Prompt.new request (some (.ofLibrary rearranged))) := by
  have hSame (query other : Text) (hQuery : query.keywords.toFinset = other.keywords.toFinset)
      (count diverse : Int) :
      library.retrieve query count diverse = rearranged.retrieve other count diverse :=
    retrieve_congr (ranked_eq_of_perm hSongs hTitles hQuery) count diverse
  refine ⟨hSame, fun hPriors request => ?_⟩
  have hSource : ReferenceSource.ofLibrary library = ReferenceSource.ofLibrary rearranged := by
    unfold ReferenceSource.ofLibrary
    congr 1
    · funext query count diverse
      rw [hSame query query rfl]
    · rw [hPriors]
  rw [hSource]

end

def nightBus : ReferenceSong where
  title := "Night Bus"
  author := none
  genres := ["dub", "techno"]
  moods := ["dark"]
  techniques := ["swing"]
  bpm := some .nan
  code := "setcpm(84)"

def ironSteps : ReferenceSong := { nightBus with title := "Iron Steps", genres := ["techno"] }

def glassGarden : ReferenceSong :=
  { nightBus with title := "Glass Garden", genres := ["ambient"], moods := [], techniques := [] }

/-- Three songs in two orders, and two queries that differ in spelling, case and repetition. -/
theorem retrieve_independent_of_order_of_three :
    [nightBus, ironSteps, glassGarden].Perm [glassGarden, ironSteps, nightBus] ∧
    ([nightBus, ironSteps, glassGarden].map (·.title)).Nodup ∧
    Text.keywords "Dark, DARK techno" ≠ Text.keywords "techno (dark)" ∧
    (Text.keywords "Dark, DARK techno").toFinset = (Text.keywords "techno (dark)").toFinset ∧
    (ReferenceLibrary.mk [nightBus, ironSteps, glassGarden] none).retrieve "Dark, DARK techno" 1 1 =
      (ReferenceLibrary.mk [glassGarden, ironSteps, nightBus] none).retrieve "techno (dark)" 1 1 ∧
    Prompt.new "dark techno"
        (some (.ofLibrary ⟨[nightBus, ironSteps, glassGarden], none⟩)) =
      Prompt.new "dark techno"
        (some (.ofLibrary ⟨[glassGarden, ironSteps, nightBus], none⟩)) := by
  have hSongs : [nightBus, ironSteps, glassGarden].Perm [glassGarden, ironSteps, nightBus] := by
    decide
  have hTitles : ([nightBus, ironSteps, glassGarden].map (·.title)).Nodup := by decide
  have hQuery : (Text.keywords "Dark, DARK techno").toFinset =
      (Text.keywords "techno (dark)").toFinset := by decide +kernel
  obtain ⟨hFound, hPrompt⟩ := @retrieve_independent_of_order
    ⟨[nightBus, ironSteps, glassGarden], none⟩ ⟨[glassGarden, ironSteps, nightBus], none⟩
    hSongs hTitles
  exact ⟨hSongs, hTitles, by decide +kernel, hQuery, hFound _ _ hQuery 1 1, hPrompt rfl _⟩

end ReferenceLibrary

end Composer
