import Composer.Proofs.Text.Cutting
import Composer.Proofs.Text.Digits
import Composer.Song.Folder
import Mathlib.Data.Finset.Card
import Mathlib.Order.Interval.Finset.Nat

/-!
Saving songs one after another. The names that are tried for a song are all different, so one of
them is free after as many tries as there are names and one more. A call with code adds one file
under the first free name, a call without code does nothing, and no call touches a file that is
there already; a run of calls therefore adds as many files as calls have code, under names of their
own.
-/

namespace Composer

namespace Song

/-! ### The names that are tried -/

variable {base : Text} {taken : List Text}

theorem candidate_injective {m n : Nat} (hm : 1 ≤ m) (hn : 1 ≤ n)
    (h : candidate base m = candidate base n) : m = n := by
  have hSuffix := List.append_cancel_left (List.append_cancel_right h)
  split at hSuffix
  · split at hSuffix
    · omega
    · exact absurd hSuffix (by simp)
  · split at hSuffix
    · exact absurd hSuffix (by simp)
    · have hDigits := congrArg digitsValue (List.cons.inj hSuffix).2
      rwa [digitsValue_ofNat, digitsValue_ofNat] at hDigits

/-- Of as many names as are taken and one more, one is free. -/
theorem le_card_of_taken {n : Nat} (h : ∀ m, 1 ≤ m → m < n → candidate base m ∈ taken) :
    n ≤ taken.toFinset.card + 1 := by
  have hSub : (Finset.Ico 1 n).image (candidate base) ⊆ taken.toFinset := by
    intro name hName
    obtain ⟨m, hm, rfl⟩ := Finset.mem_image.1 hName
    obtain ⟨hFirst, hLast⟩ := Finset.mem_Ico.1 hm
    exact List.mem_toFinset.2 (h m hFirst hLast)
  have hCard : ((Finset.Ico 1 n).image (candidate base)).card = n - 1 := by
    rw [Finset.card_image_of_injOn, Nat.card_Ico]
    intro m hm k hk hSame
    exact candidate_injective (Finset.mem_Ico.1 hm).1 (Finset.mem_Ico.1 hk).1 hSame
  have hLe := Finset.card_le_card hSub
  omega

/-- The names that are passed over are taken, and as long as there is fuel left the last one is
not. -/
theorem firstFree_eq (base : Text) (taken : List Text) (fuel n : Nat) :
    ∃ last, n ≤ last ∧ firstFree base taken fuel n = candidate base last ∧
      (∀ m, n ≤ m → m < last → candidate base m ∈ taken) ∧
      (last < n + fuel → candidate base last ∉ taken) ∧ last ≤ n + fuel := by
  induction fuel generalizing n with
  | zero => exact ⟨n, le_rfl, rfl, by omega, by omega, le_rfl⟩
  | succ fuel ih =>
      unfold firstFree
      split
      · next hTaken =>
          obtain ⟨last, hLe, hSame, hPassed, hFree, hBound⟩ := ih (n + 1)
          refine ⟨last, by omega, hSame, ?_, fun h => hFree (by omega), by omega⟩
          intro m hm hLast
          rcases Nat.eq_or_lt_of_le hm with rfl | hMore
          · exact hTaken
          · exact hPassed m hMore hLast
      · next hFree => exact ⟨n, le_rfl, rfl, by omega, fun _ => hFree, by omega⟩

/-- The first free name for a base: its number is the least whose name is not taken, and at most one
more than there are taken names. -/
structure IsFirstFree (base : Text) (taken : List Text) (name : Text) (n : Nat) : Prop where
  positive : 1 ≤ n
  name_eq : name = candidate base n
  free : name ∉ taken
  passed : ∀ m, 1 ≤ m → m < n → candidate base m ∈ taken
  bounded : n ≤ taken.toFinset.card + 1

/-- The search for a name comes to the first free one. -/
theorem exists_isFirstFree (base : Text) (taken : List Text) :
    ∃ n, IsFirstFree base taken (firstFree base taken taken.length 1) n := by
  obtain ⟨n, hPositive, hSame, hPassed, hFree, hBound⟩ := firstFree_eq base taken taken.length 1
  refine ⟨n, hPositive, hSame, ?_, hPassed, le_card_of_taken hPassed⟩
  rw [hSame]
  intro hTaken
  -- then all names up to this one are taken, one more than there are
  have hNext : n + 1 ≤ taken.toFinset.card + 1 := le_card_of_taken fun m hm hLe => by
    rcases Nat.eq_or_lt_of_le (Nat.le_of_lt_succ hLe) with rfl | hLess
    · exact hTaken
    · exact hPassed m hm hLess
  have hLength := taken.toFinset_card_le
  exact hFree (by omega) hTaken

example : fileName "A b!" "song" ["a-b-3.md", "a-b.md"] = "a-b-2.md".toList := by decide

theorem isSongName_candidate (base : Text) (n : Nat) :
    SongFolder.isSongName (candidate base n) := by
  rw [SongFolder.isSongName, candidate, Text.before?, List.reverse_append, Text.after?_append]
  rfl

end Song

/-! ### Calls -/

/-- What a song is saved with. -/
structure SaveCall where
  code : Text
  title : Option Text
  prompt : Option Text
  now : Stamp

namespace SaveCall

def run (c : SaveCall) (folder : Option SongFolder) : Option SongFolder × Except SaveError Text :=
  SongFolder.save folder c.code c.title c.prompt c.now

/-- The slug of the title; the fallback with the time in it when there is none. -/
def base (c : SaveCall) : Text :=
  if (Song.slug (Song.titleOf c.title c.now)).isEmpty then Song.fallbackTitle c.now
  else Song.slug (Song.titleOf c.title c.now)

def newName (c : SaveCall) (folder : SongFolder) : Text :=
  Song.fileName (Song.titleOf c.title c.now) (Song.fallbackTitle c.now) folder.takenNames

/-- The file that the song is written to. -/
def entry (c : SaveCall) : FolderEntry :=
  .file (.text (Song.sheetOf c.code c.title c.prompt c.now).write) c.now.instant

/-- What a call may do to a folder, and what it returns: without code nothing at all, and else add
one file, under the first free name. -/
inductive Does (c : SaveCall) (folder : Option SongFolder) :
    Option SongFolder → Except SaveError Text → Prop where
  | refused (hBlank : c.code.isBlankText) : Does c folder folder (.error .missingCode)
  | added {name : Text} {n : Nat} (hFilled : c.code.isBlankText = false)
      (hName : Song.IsFirstFree c.base (folder.getD []).takenNames name n) :
      Does c folder (some (folder.getD [] ++ [(name, c.entry)])) (.ok name)

theorem run_of_blank {c : SaveCall} (hBlank : c.code.isBlankText) (folder : Option SongFolder) :
    c.run folder = (folder, .error .missingCode) := by
  simp [run, SongFolder.save, SongFolder.newFile, hBlank]

theorem run_of_filled {c : SaveCall} (hFilled : c.code.isBlankText = false)
    (folder : Option SongFolder) :
    c.run folder =
      (some (folder.getD [] ++ [(c.newName (folder.getD []), c.entry)]),
        .ok (c.newName (folder.getD []))) := by
  simp only [run, SongFolder.save, SongFolder.newFile, hFilled]
  rfl

theorem does_run (c : SaveCall) (folder : Option SongFolder) :
    c.Does folder (c.run folder).1 (c.run folder).2 := by
  cases hCode : c.code.isBlankText with
  | true =>
      rw [run_of_blank hCode]
      exact .refused hCode
  | false =>
      obtain ⟨n, hName⟩ := Song.exists_isFirstFree c.base (folder.getD []).takenNames
      rw [run_of_filled hCode]
      exact .added hCode hName

/-- The name of a new file is not the name of anything in the folder, also not of another folder. -/
theorem not_mem_of_isFirstFree {base name : Text} {folder : SongFolder} {n : Nat}
    (h : Song.IsFirstFree base folder.takenNames name n) : name ∉ folder.map Prod.fst := by
  intro hName
  have hSong : SongFolder.isSongName name := h.name_eq ▸ Song.isSongName_candidate base n
  exact h.free (List.mem_filter.2 ⟨hName, hSong⟩)

end SaveCall

/-! ### Runs of calls -/

namespace SongFolder

/-- The folder after some calls, and what each of them returned. -/
def saveAll (folder : Option SongFolder) : List SaveCall →
    Option SongFolder × List (Except SaveError Text)
  | [] => (folder, [])
  | c :: calls =>
    let (next, result) := c.run folder
    let (last, results) := saveAll next calls
    (last, result :: results)

/-- Calls one after another, each of which does what a call may do. -/
inductive Saves : Option SongFolder → List SaveCall → Option SongFolder →
    List (Except SaveError Text) → Prop where
  | nil (folder : Option SongFolder) : Saves folder [] folder []
  | cons {folder next last : Option SongFolder} {c : SaveCall} {calls : List SaveCall}
      {result : Except SaveError Text} {results : List (Except SaveError Text)}
      (hFirst : c.Does folder next result) (hRest : Saves next calls last results) :
      Saves folder (c :: calls) last (result :: results)

theorem saves_saveAll (folder : Option SongFolder) (calls : List SaveCall) :
    Saves folder calls (saveAll folder calls).1 (saveAll folder calls).2 := by
  induction calls generalizing folder with
  | nil => exact .nil folder
  | cons c calls ih => exact .cons (c.does_run folder) (ih (c.run folder).1)

/-- What is left of a folder after some calls: all that was in it, as it was, and one file for each
call with code, under the name that the call returned; all these names are new. A folder that does
not exist is created only for a file. -/
structure Keeps (folder : Option SongFolder) (calls : List SaveCall) (last : Option SongFolder)
    (results : List (Except SaveError Text)) (added : SongFolder) : Prop where
  last_eq : last = if added = [] then folder else some (folder.getD [] ++ added)
  entries : added.map Prod.snd =
    (calls.filter fun c => !c.code.isBlankText).map SaveCall.entry
  names : added.map Prod.fst = results.filterMap Except.toOption
  distinct : (added.map Prod.fst).Nodup
  fresh : ∀ name ∈ added.map Prod.fst, name ∉ (folder.getD []).map Prod.fst

theorem Saves.keeps {folder last : Option SongFolder} {calls : List SaveCall}
    {results : List (Except SaveError Text)} (h : Saves folder calls last results) :
    ∃ added, Keeps folder calls last results added := by
  induction h with
  | nil folder => exact ⟨[], rfl, rfl, rfl, List.nodup_nil, by simp⟩
  | @cons folder next last c calls result results hFirst hRest ih =>
      obtain ⟨added, hLast, hEntries, hNames, hDistinct, hFresh⟩ := ih
      cases hFirst with
      | refused hBlank =>
          refine ⟨added, hLast, ?_, ?_, hDistinct, hFresh⟩
          · rw [List.filter_cons_of_neg (by simp [hBlank]), hEntries]
          · rw [List.filterMap_cons, ← hNames]
            rfl
      | @added name n hFilled hName =>
          -- the other calls start from a folder with the new name in it, so none gets it again
          have hNew := SaveCall.not_mem_of_isFirstFree hName
          simp only [Option.getD_some, List.map_append, List.mem_append, not_or] at hFresh
          refine ⟨(name, c.entry) :: added, ?_, ?_, ?_, ?_, ?_⟩
          · rw [hLast, if_neg (List.cons_ne_nil _ _)]
            split
            · next hNone => rw [hNone]
            · rw [Option.getD_some, List.append_assoc, List.singleton_append]
          · rw [List.filter_cons_of_pos (by simp [hFilled]), List.map_cons, List.map_cons, hEntries]
          · rw [List.filterMap_cons, List.map_cons, hNames]
            rfl
          · rw [List.map_cons, List.nodup_cons]
            exact ⟨fun hAgain => (hFresh name hAgain).2 List.mem_cons_self, hDistinct⟩
          · rw [List.map_cons, List.forall_mem_cons]
            exact ⟨hNew, fun other hOther => (hFresh other hOther).1⟩

/-- Saving loses nothing: each call of a run does what a call may do, and after all of them the
folder has kept what was in it and has one new file for each call with code. -/
theorem saveAll_loses_nothing (folder : Option SongFolder) (calls : List SaveCall) :
    Saves folder calls (saveAll folder calls).1 (saveAll folder calls).2 ∧
      ∃ added, Keeps folder calls (saveAll folder calls).1 (saveAll folder calls).2 added :=
  have hSaves := saves_saveAll folder calls
  ⟨hSaves, hSaves.keeps⟩

end SongFolder

end Composer
