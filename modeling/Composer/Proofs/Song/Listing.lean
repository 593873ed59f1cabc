import Composer.Proofs.Reference.Ranking
import Composer.Proofs.Time.Stamps
import Composer.Song.Folder

/-!
Listings of song folders. Every song file whose text can be read is dated by the time of creation on
its sheet, or by the file's last change where that cannot be read, and is listed once, newest first.
The one thing in a readable file that stops a listing is a local time that cannot be told: a time of
creation without offset on the first of all days, or a last change outside the calendar.
-/

namespace Composer

/-! ### Dates -/

theorem Text.replaceChar_of_not_mem {old : Char} {t : Text} (h : old ∉ t) (new : Text) :
    replaceChar old new t = t := by
  induction t with
  | nil => rfl
  | cons c t ih =>
      rw [List.mem_cons, not_or] at h
      rw [replaceChar, List.flatMap_cons, if_neg (Ne.symm h.1)]
      exact congrArg (c :: ·) (ih h.2)

theorem Text.before?_eq_some_iff {ending t before : Text} :
    before? ending t = some before ↔ t = before ++ ending := by
  unfold before?
  constructor
  · intro h
    obtain ⟨rest, hRest, rfl⟩ := Option.map_eq_some_iff.1 h
    have hReversed := congrArg List.reverse (eq_append_of_after?_eq_some hRest)
    rwa [List.reverse_reverse, List.reverse_append, List.reverse_reverse] at hReversed
  · rintro rfl
    rw [List.reverse_append, after?_append, Option.map_some, List.reverse_reverse]

namespace Song

/-- A stamp that is written out dates a song. -/
theorem createdStamp?_toText {s : Stamp} (h : s.Writable) :
    createdStamp? s.toText = some s.readBack := by
  rw [createdStamp?, Text.replaceChar_of_not_mem s.zulu_not_mem_toText, h.ofText?_toText]

/-- What a song is dated by: the time of creation when that can be read, and for every other text
the last change of its file, which is then written out. -/
inductive Dates (created : Text) (modified : Int) : Int → Text → Prop where
  | onSheet {s : Stamp} (hRead : createdStamp? created = some s) :
      Dates created modified s.instant created
  | byFile {s : Stamp} (hUnread : createdStamp? created = none) (hInstant : s.instant = modified)
      (hUniversal : s.offset = some 0) (hReadBack : createdStamp? s.toText = some s) :
      Dates created modified modified s.toText

/-- A song whose local time cannot be told: it was created, without an offset, on the first of all
days, or it goes by a file that was changed last on that day or outside the calendar. -/
inductive Undatable (created : Text) (modified : Int) : Prop where
  | onSheet {s : Stamp} (hRead : createdStamp? created = some s) (hLocal : s.offset = none)
      (hDay : s.date = ⟨1, 1, 1⟩)
  | byFile (hUnread : createdStamp? created = none)
      (hDay : Stamp.dayOf modified < 2 ∨ Date.lastNumber < Stamp.dayOf modified)

variable {created : Text} {modified : Int}

theorem undatable_iff_of_read {s : Stamp} (hRead : createdStamp? created = some s) :
    Undatable created modified ↔ s.offset = none ∧ s.date = ⟨1, 1, 1⟩ := by
  constructor
  · rintro (⟨hOther, hLocal, hDay⟩ | ⟨hUnread, -⟩)
    · obtain rfl := Option.some.inj (hRead.symm.trans hOther)
      exact ⟨hLocal, hDay⟩
    · exact nomatch hRead.symm.trans hUnread
  · rintro ⟨hLocal, hDay⟩
    exact .onSheet hRead hLocal hDay

theorem undatable_iff_of_unread (hUnread : createdStamp? created = none) :
    Undatable created modified ↔
      Stamp.dayOf modified < 2 ∨ Date.lastNumber < Stamp.dayOf modified := by
  constructor
  · rintro (⟨hRead, -, -⟩ | ⟨-, hDay⟩)
    · exact nomatch hUnread.symm.trans hRead
    · exact hDay
  · exact .byFile hUnread

theorem dated_of_read {s : Stamp} (hRead : createdStamp? created = some s) :
    (dated created modified = .ok (s.instant, created) ∧ ¬Undatable created modified) ∨
    ∃ year, dated created modified = .error (.outOfCalendar year) ∧
      Undatable created modified := by
  have hValid : s.isValid := Stamp.isValid_of_ofText? hRead
  simp only [dated, hRead, undatable_iff_of_read hRead]
  cases hOffset : s.offset with
  | some offset => exact .inl ⟨rfl, by simp⟩
  | none =>
      have hMissing := Stamp.missingYear?_instant_eq_none_iff hValid hOffset
      cases hYear : Stamp.missingYear? s.instant with
      | none => exact .inl ⟨by simp [localInstant, hYear, Except.map], by simp [hMissing.1 hYear]⟩
      | some year =>
          have hDay : s.date = ⟨1, 1, 1⟩ := by
            by_contra hOther
            exact nomatch hYear.symm.trans (hMissing.2 hOther)
          exact .inr ⟨year, by simp [localInstant, hYear, Except.map], rfl, hDay⟩

theorem dated_of_unread (hUnread : createdStamp? created = none) :
    (dated created modified = .ok (modified, (Stamp.ofInstant modified).toText) ∧
      ¬Undatable created modified) ∨
    ∃ year, dated created modified = .error (.outOfCalendar year) ∧
      Undatable created modified := by
  simp only [dated, hUnread, undatable_iff_of_unread hUnread]
  have hMissing := Stamp.missingYear?_eq_none_iff (t := modified)
  cases hYear : Stamp.missingYear? modified with
  | none =>
      obtain ⟨hFirst, hLast⟩ := hMissing.1 hYear
      exact .inl ⟨by simp [localInstant, hYear, Except.map], by omega⟩
  | some year =>
      refine .inr ⟨year, by simp [localInstant, hYear, Except.map], ?_⟩
      by_contra hInside
      exact nomatch hYear.symm.trans (hMissing.2 (by omega))

/-- Songs that can be dated are dated; of the others the local time is missing. -/
theorem dated_spec (created : Text) (modified : Int) :
    (∃ t text, dated created modified = .ok (t, text) ∧ Dates created modified t text ∧
      ¬Undatable created modified) ∨
    ∃ year, dated created modified = .error (.outOfCalendar year) ∧ Undatable created modified := by
  cases hCreated : createdStamp? created with
  | some s =>
      exact (dated_of_read hCreated).imp_left fun ⟨hDated, hDatable⟩ =>
        ⟨s.instant, created, hDated, .onSheet hCreated, hDatable⟩
  | none =>
      refine (dated_of_unread hCreated).imp_left fun ⟨hDated, hDatable⟩ => ?_
      rw [undatable_iff_of_unread hCreated, not_or, not_lt, not_lt] at hDatable
      have hFirst : 1 ≤ Stamp.dayOf modified := by omega
      have hStamp := Stamp.wellFormed_ofInstant hFirst hDatable.2
      have hReadBack := createdStamp?_toText hStamp.writable
      rw [hStamp.readBack_eq] at hReadBack
      refine ⟨modified, _, hDated,
        .byFile hCreated (Stamp.instant_ofInstant hFirst) rfl hReadBack, ?_⟩
      rw [undatable_iff_of_unread hCreated]
      omega

end Song

/-! ### Song files -/

/-- A file of a folder: its name, what is in it, and the instant of its last change. -/
structure SongFile where
  name : Text
  content : FileContent
  modified : Int

/-- The files of a folder whose names end like those of song files, in the folder's order. -/
def SongFolder.songFiles (folder : SongFolder) : List SongFile :=
  folder.filterMap fun
    | (name, .file content modified) =>
      if isSongName name then some ⟨name, content, modified⟩ else none
    | (_, .folder) => none

namespace SongFile

/-- The name of a file without its ending; a name that is nothing but the ending stays. -/
inductive Stem : Text → Text → Prop where
  | proper {stem : Text} (hFilled : stem ≠ []) : Stem (stem ++ Song.extension) stem
  | bare : Stem Song.extension Song.extension

/-- How a file is listed: as what its sheet says, under the stem of its name when there is no title,
and dated. -/
inductive Lists (f : SongFile) : Int × ListedSong → Prop where
  | intro {text title created : Text} {t : Int} (hText : f.content.read = .ok text)
      (hTitle : if (SongSheet.ofText text).title = [] then Stem f.name title
        else title = (SongSheet.ofText text).title)
      (hDates : Song.Dates (SongSheet.ofText text).created f.modified t created) :
      Lists f (t, ⟨{ SongSheet.ofText text with title := title, created := created }, f.name⟩)

/-- A file that can be read, but whose song cannot be dated. -/
def Undatable (f : SongFile) : Prop :=
  ∃ text, f.content.read = .ok text ∧ Song.Undatable (SongSheet.ofText text).created f.modified

def read (f : SongFile) : Except ListingError (Int × ListedSong) :=
  Song.ofFile f.name f.content f.modified

theorem stem_spec {name : Text} (h : SongFolder.isSongName name) : Stem name (Song.stem name) := by
  obtain ⟨before, hBefore⟩ := Option.isSome_iff_exists.1 h
  obtain rfl := Text.before?_eq_some_iff.1 hBefore
  unfold Song.stem
  rw [hBefore]
  cases before with
  | nil => exact .bare
  | cons c before => exact .proper (List.cons_ne_nil c before)

/-- The title that a file is listed under. -/
theorem title_spec {name : Text} (h : SongFolder.isSongName name) (onSheet : Text) :
    let title := if onSheet.isEmpty then Song.stem name else onSheet
    if onSheet = [] then Stem name title else title = onSheet := by
  cases onSheet with
  | nil => exact stem_spec h
  | cons c t => rfl

/-- A file with a text is listed, or its song cannot be dated. -/
theorem read_spec {f : SongFile} {text : Text} (hName : SongFolder.isSongName f.name)
    (hText : f.content.read = .ok text) :
    (∃ row, f.read = .ok row ∧ f.Lists row ∧ ¬f.Undatable) ∨
    ∃ year, f.read = .error (.outOfCalendar year) ∧ f.Undatable := by
  have hOnly : f.Undatable → Song.Undatable (SongSheet.ofText text).created f.modified := by
    rintro ⟨other, hOther, hUndatable⟩
    obtain rfl := Except.ok.inj (hText.symm.trans hOther)
    exact hUndatable
  rcases Song.dated_spec (SongSheet.ofText text).created f.modified with
    ⟨t, created, hDated, hDates, hDatable⟩ | ⟨year, hDated, hUndatable⟩
  · have hTitle := title_spec hName (SongSheet.ofText text).title
    refine .inl ⟨_, ?_, .intro hText hTitle hDates, fun h => hDatable (hOnly h)⟩
    simp only [read, Song.ofFile, hText, bind, Except.bind, hDated]
    rfl
  · refine .inr ⟨year, ?_, text, hText, hUndatable⟩
    simp only [read, Song.ofFile, hText, bind, Except.bind, hDated]

/-- A file that is read is listed as its text says. -/
theorem lists_of_read {f : SongFile} {text : Text} {row : Int × ListedSong}
    (hName : SongFolder.isSongName f.name) (hText : f.content.read = .ok text)
    (hRow : f.read = .ok row) : f.Lists row ∧ ¬f.Undatable := by
  rcases read_spec hName hText with ⟨other, hOther, hLists⟩ | ⟨year, hYear, -⟩
  · obtain rfl := Except.ok.inj (hOther.symm.trans hRow)
    exact hLists
  · exact nomatch hYear.symm.trans hRow

end SongFile

namespace SongFolder

theorem isSongName_of_mem_songFiles {folder : SongFolder} {f : SongFile}
    (h : f ∈ folder.songFiles) : isSongName f.name := by
  obtain ⟨⟨name, entry⟩, -, hEntry⟩ := List.mem_filterMap.1 h
  cases entry with
  | folder => exact nomatch hEntry
  | file content modified =>
      by_cases hName : isSongName name
      · simp only [hName, if_true, Option.some.injEq] at hEntry
        exact hEntry ▸ hName
      · simp [hName] at hEntry

/-- Reading a folder is reading its song files in turn, up to the first that cannot be read. -/
theorem readSongs_spec (folder : SongFolder) :
    (∃ rows, folder.readSongs = .ok rows ∧
      List.Forall₂ (fun f row => SongFile.read f = .ok row) folder.songFiles rows) ∨
    ∃ f ∈ folder.songFiles, ∃ e, f.read = .error e ∧ folder.readSongs = .error e := by
  induction folder with
  | nil => exact .inl ⟨[], rfl, .nil⟩
  | cons entry folder ih =>
      obtain ⟨name, entry⟩ := entry
      cases entry with
      | folder => exact ih
      | file content modified =>
          by_cases hName : isSongName name
          · have hFiles : songFiles ((name, .file content modified) :: folder) =
                ⟨name, content, modified⟩ :: songFiles folder := by
              simp [songFiles, hName]
            rw [hFiles]
            simp only [readSongs, hName, if_true]
            cases hRead : Song.ofFile name content modified with
            | error e => exact .inr ⟨_, List.mem_cons_self, e, hRead, rfl⟩
            | ok row =>
                rcases ih with ⟨rows, hRows, hEach⟩ | ⟨f, hMem, e, hError, hStops⟩
                · exact .inl ⟨row :: rows, by rw [hRows]; rfl, .cons hRead hEach⟩
                · refine .inr ⟨f, List.mem_cons_of_mem _ hMem, e, hError, ?_⟩
                  rw [hStops]
                  rfl
          · have hFiles : songFiles ((name, .file content modified) :: folder) =
                songFiles folder := by
              simp [songFiles, hName]
            rw [hFiles]
            simp only [readSongs, hName]
            exact ih

/-- The order of a listing: newest first, and of the same instant in the order before. -/
def NewerFirst (a b : (Int × ListedSong) × Nat) : Prop :=
  b.1.1 < a.1.1 ∨ a.1.1 = b.1.1 ∧ a.2 < b.2

/-- Rows sorted for a listing. -/
theorem exists_order_list {folder : SongFolder} {rows : List (Int × ListedSong)}
    (h : folder.readSongs = .ok rows) :
    ∃ order, List.Perm order rows.zipIdx ∧ order.Pairwise NewerFirst ∧
      folder.list = .ok (order.map fun row => row.1.2) := by
  obtain ⟨order, hPerm, hPairwise, hSorted⟩ :=
    exists_order_mergeSort (fun row : Int × ListedSong => OrderDual.toDual row.1) rows
  refine ⟨order, hPerm, hPairwise.imp fun {a b} hLess => ?_, ?_⟩
  · rcases Prod.Lex.toLex_lt_toLex.1 hLess with hNewer | ⟨hSame, hPlace⟩
    · exact .inl (OrderDual.toDual_lt_toDual.1 hNewer)
    · exact .inr ⟨OrderDual.toDual_inj.1 hSame, hPlace⟩
  · have hOrder : (fun a b : Int × ListedSong => decide (b.1 ≤ a.1)) =
        fun a b => decide (OrderDual.toDual a.1 ≤ OrderDual.toDual b.1) := by
      funext a b
      exact decide_eq_decide.2 OrderDual.toDual_le_toDual.symm
    rw [list, h, hOrder]
    simp only [Except.map, hSorted, List.map_map]
    rfl

/-- Listing a folder whose song files can all be read. Unless the song of one of them cannot be
dated, there is one row for every file, and the rows come newest first, with those of the same
instant in the folder's order. If the song of one cannot be dated, nothing is listed. -/
theorem list_lists (folder : SongFolder)
    (hReadable : ∀ f ∈ folder.songFiles, ∃ text, f.content.read = .ok text) :
    ((∀ f ∈ folder.songFiles, ¬f.Undatable) →
      ∃ rows order, List.Forall₂ SongFile.Lists folder.songFiles rows ∧
        List.Perm order rows.zipIdx ∧ order.Pairwise NewerFirst ∧
        folder.list = .ok (order.map fun row => row.1.2)) ∧
    ((∃ f ∈ folder.songFiles, f.Undatable) →
      ∃ year, folder.list = .error (.outOfCalendar year)) := by
  rcases readSongs_spec folder with ⟨rows, hRows, hEach⟩ | ⟨f, hMem, e, hError, hStops⟩
  · have hEachFile := (List.forall₂_and_left _ _).2 ⟨fun f (h : f ∈ folder.songFiles) => h, hEach⟩
    have hLists := hEachFile.imp fun f row ⟨hMem, hRow⟩ =>
      have ⟨_, hText⟩ := hReadable f hMem
      SongFile.lists_of_read (isSongName_of_mem_songFiles hMem) hText hRow
    obtain ⟨order, hPerm, hPairwise, hList⟩ := exists_order_list hRows
    refine ⟨fun _ => ⟨rows, order, hLists.imp fun _ _ => And.left, hPerm, hPairwise, hList⟩, ?_⟩
    rintro ⟨f, hMem, hUndatable⟩
    have hDatable := (List.forall₂_and_left _ _).1 (hLists.imp fun _ _ => And.symm)
    exact absurd hUndatable (hDatable.1 f hMem)
  · have hFailed : folder.list = .error e := by
      rw [list, hStops]
      rfl
    obtain ⟨text, hText⟩ := hReadable f hMem
    rcases SongFile.read_spec (isSongName_of_mem_songFiles hMem) hText with
      ⟨row, hRow, -⟩ | ⟨year, hYear, hUndatable⟩
    · exact nomatch hRow.symm.trans hError
    · obtain rfl := Except.error.inj (hYear.symm.trans hError)
      exact ⟨fun hAll => absurd hUndatable (hAll f hMem), fun _ => ⟨year, hFailed⟩⟩

/-- A song with a time of creation on its sheet, and one that goes by its file. -/
def twoSongs : SongFolder :=
  [("a.md", .file (.text "created: 2024-02-29T12:00:00Z") 0),
    ("b.md", .file (.text "# B") 1700000000000000)]

theorem list_lists_twoSongs :
    (∀ f ∈ songFiles twoSongs, ∃ text, f.content.read = .ok text) ∧
    (∀ f ∈ songFiles twoSongs, ¬f.Undatable) ∧
    ∃ rows order, List.Forall₂ SongFile.Lists (songFiles twoSongs) rows ∧
      List.Perm order rows.zipIdx ∧ order.Pairwise NewerFirst ∧
      list twoSongs = .ok (order.map fun row => row.1.2) := by
  have hReadable : ∀ f ∈ songFiles twoSongs, ∃ text, f.content.read = .ok text := by
    refine List.forall_mem_cons.2 ⟨⟨_, rfl⟩, List.forall_mem_cons.2 ⟨⟨_, rfl⟩, ?_⟩⟩
    exact fun f hMem => absurd hMem List.not_mem_nil
  have hListed : (list twoSongs).isOk := by decide +kernel
  obtain ⟨hLists, hStops⟩ := list_lists twoSongs hReadable
  have hDatable : ∀ f ∈ songFiles twoSongs, ¬f.Undatable := by
    intro f hMem hUndatable
    obtain ⟨year, hError⟩ := hStops ⟨f, hMem, hUndatable⟩
    rw [hError] at hListed
    exact Bool.false_ne_true hListed
  exact ⟨hReadable, hDatable, hLists hDatable⟩

/-- A song of the first of all days, whose folder is not listed. -/
def firstDaySong : SongFolder :=
  [("a.md", .file (.text "# A\ncreated: 0001-01-01\n\n```strudel\nsetcpm(90)\n```\n")
    1700000000000000)]

/-- A listing can fail although every song file can be read. -/
theorem list_stopped_by_first_day :
    (∀ f ∈ songFiles firstDaySong, ∃ text, f.content.read = .ok text) ∧
    list firstDaySong = .error (.outOfCalendar 0) := by
  refine ⟨?_, by decide +kernel⟩
  exact List.forall_mem_cons.2 ⟨⟨_, rfl⟩, fun f hMem => absurd hMem List.not_mem_nil⟩

end SongFolder

end Composer
