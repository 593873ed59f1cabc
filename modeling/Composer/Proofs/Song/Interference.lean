import Composer.Proofs.Song.Listing
import Composer.Proofs.Song.Saving
import Composer.Proofs.Song.Sheet
import Composer.Proofs.Text.LineEnds

/-!
What the title and the prompt of a song do to its other fields. A saved song is read back line by
line and by its first block, so a title or a prompt with a fence in it hides the code, and a title
of several lines can say another time or another prompt, or push them out of sight. Titles and
prompts that do nothing of the kind are harmless; with them every code and every time of creation is
read back, and with others some are not.
-/

namespace Composer

theorem Text.fitsLine_of_no_blank {t : Text} (hFilled : t ≠ []) (h : ∀ c ∈ t, isBlank c = false) :
    t.FitsLine where
  filled := hFilled
  stripped := trimWhere_eq_self (fun c hc => h c (List.mem_of_mem_head? hc))
    fun c hc => h c (List.mem_of_mem_getLast? hc)
  unbroken c hc := isLineBoundary_eq_false (h c hc)

namespace Song

/-! ### What is saved -/

theorem fitsLine_toText (s : Stamp) : s.toText.FitsLine :=
  Text.fitsLine_of_no_blank s.toText_ne_nil Stamp.isBlank_eq_false_of_mem_toText

theorem not_infix_toText (s : Stamp) : ¬Fence.mark <:+: s.toText := by
  intro hMark
  have hBackquote := Stamp.not_mem_toText (c := '\x60') (by decide) (by decide) s
  exact hBackquote (hMark.subset List.mem_cons_self)

theorem not_mem_fallbackTitle {c : Char} (hDigit : isAsciiDigit c = false)
    (hOther : c ∉ "song-".toList) (now : Stamp) : c ∉ fallbackTitle now := by
  have hNumber := Text.not_mem_ofNat hDigit
  have hPadded := Text.not_mem_ofNatPadded hDigit
  have hDash : c ≠ '-' := by
    rintro rfl
    exact hOther (by decide)
  have hTitle : fallbackTitle now = "song-".toList ++ now.toName := rfl
  rw [hTitle, List.mem_append, not_or]
  refine ⟨hOther, ?_⟩
  simp only [Stamp.toName, List.mem_append, List.mem_cons, hNumber, hPadded, hDash, or_false,
    not_false_iff]

theorem fitsLine_fallbackTitle (now : Stamp) : (fallbackTitle now).FitsLine := by
  refine Text.fitsLine_of_no_blank (List.cons_ne_nil _ _) ?_
  exact Text.isBlank_eq_false_of_digits
    (fun _ hDigit hOther => not_mem_fallbackTitle hDigit hOther now) (by decide)

/-- The title of a song is the one that was given, without white space around it, or the
fallback. -/
theorem titleOf_eq (title : Option Text) (now : Stamp) :
    titleOf title now =
      if (title.getD []).strip = [] then fallbackTitle now else (title.getD []).strip := by
  rw [titleOf, SongSheet.nonEmpty?]
  cases (title.getD []).strip <;> rfl

theorem wellFormed_sheetOf (code : Text) (title prompt : Option Text) (now : Stamp) :
    (sheetOf code title prompt now).WellFormed where
  titled := by
    change titleOf title now ≠ []
    rw [titleOf_eq]
    split
    · exact (fitsLine_fallbackTitle now).filled
    · assumption
  stripped := by
    change (titleOf title now).strip = titleOf title now
    rw [titleOf_eq]
    split
    · exact (fitsLine_fallbackTitle now).stripped
    · exact Text.strip_strip _
  created := fitsLine_toText now
  prompt _ hp := fitsLine_of_onOneLine hp

end Song

/-! ### What is read -/

namespace SongSheet

theorem Header.ofText_unifyLineEnds (t : Text) :
    Header.ofText t.unifyLineEnds = Header.ofText t := by
  rw [Header.ofText, Header.ofText, Text.allLines_unifyLineEnds]

/-- The lines of a sheet that its header is read from, but for the first: those of the title that
are left, and those below, of which `block` are the lines of the block. -/
def lowerLines (s : SongSheet) (block : List Text) : List Text :=
  (s.title.allLines.tail ++ (s.fieldLines ++ block)).take 7

namespace WellFormed
variable {s : SongSheet} (h : s.WellFormed)
include h

/-- The header that is read of a sheet. -/
theorem exists_header_write : ∃ name block, Header.ofText s.write =
    ⟨name, ((s.lowerLines block).findSome? (said? createdStart)).getD [],
      (s.lowerLines block).findSome? (said? promptStart)⟩ := by
  obtain ⟨first, rest, hTitle, hFirst⟩ := h.exists_allLines_title
  obtain ⟨codeLines, -, hLines⟩ := h.allLines_write hTitle
  refine ⟨first.strip, [[], Fence.mark ++ tag] ++ (codeLines ++ [Fence.mark]), ?_⟩
  rw [Header.ofText_of_heading hLines hFirst, lowerLines, hTitle, List.tail_cons]

omit h in
/-- Of the lines below the title some are left if it has less than eight. -/
theorem lowerLines_eq {block : List Text} (hShort : s.title.allLines.tail.length ≤ 7) :
    s.lowerLines block = s.title.allLines.tail ++
      (s.fieldLines ++ block).take (7 - s.title.allLines.tail.length) := by
  rw [lowerLines, List.take_append, List.take_of_length_le hShort]

/-- The time is read if the title does not say one, and leaves its line in sight. -/
theorem findSome?_created_of_silent (block : List Text)
    (hShort : s.title.allLines.tail.length ≤ 6)
    (hSilent : s.title.allLines.tail.findSome? (said? createdStart) = none) :
    (s.lowerLines block).findSome? (said? createdStart) = some s.created := by
  obtain ⟨n, hn⟩ : ∃ n, 7 - s.title.allLines.tail.length = n + 1 :=
    ⟨6 - s.title.allLines.tail.length, by omega⟩
  rw [lowerLines_eq (by omega), List.findSome?_append, hSilent, Option.none_or, hn, fieldLines,
    List.cons_append, List.take_succ_cons, List.findSome?_cons, said?_line h.created fun _ => rfl]

/-- The prompt is read if the title says none, and leaves the line of the prompt in sight. -/
theorem findSome?_prompt_of_silent (block : List Text) {p : Text} (hp : s.prompt = some p)
    (hShort : s.title.allLines.tail.length ≤ 5)
    (hSilent : s.title.allLines.tail.findSome? (said? promptStart) = none) :
    (s.lowerLines block).findSome? (said? promptStart) = some p := by
  have hFew : s.fieldLines.length ≤ 7 - s.title.allLines.tail.length := by
    have hOne := length_promptLines_le s.prompt
    rw [fieldLines, List.length_cons]
    omega
  rw [lowerLines_eq (by omega), List.findSome?_append, hSilent, Option.none_or, List.take_append,
    List.take_of_length_le hFew, h.findSome?_prompt, hp]
  rfl

end WellFormed

/-- A prompt that is read is said by the title, or else below it. -/
theorem said_of_findSome?_prompt {s : SongSheet} {block : List Text} {p : Text}
    (hShort : s.title.allLines.tail.length ≤ 6)
    (hRead : (s.lowerLines block).findSome? (said? promptStart) = some p) :
    s.title.allLines.tail.findSome? (said? promptStart) = some p ∨
      s.title.allLines.tail.findSome? (said? promptStart) = none ∧
        s.title.allLines.tail.length ≤ 5 := by
  rw [WellFormed.lowerLines_eq (Nat.le_succ_of_le hShort), List.findSome?_append] at hRead
  cases hTail : s.title.allLines.tail.findSome? (said? promptStart) with
  | some q =>
      rw [hTail] at hRead
      exact .inl hRead
  | none =>
      refine .inr ⟨rfl, ?_⟩
      by_contra hLong
      -- only the line with the time is in sight
      have hOne : 7 - s.title.allLines.tail.length = 1 := by omega
      rw [hTail, Option.none_or, hOne, fieldLines, List.cons_append, List.take_succ_cons,
        List.take_zero, List.findSome?_cons, said?_eq_none rfl] at hRead
      exact Option.some_ne_none p hRead.symm

/-- The code is read if there is no fence but those around it. -/
theorem code_ofText_unifyLineEnds_write {s : SongSheet} (hHeading : ¬Fence.mark <:+: s.heading)
    (hCode : ¬Fence.mark <:+: s.code) (hReturn : '\r' ∉ s.code) :
    (ofText s.write.unifyLineEnds).code = s.code.strip := by
  have hStripped : ¬Fence.mark <:+: s.code.strip :=
    fun h => hCode (h.trans (Text.strip_infix s.code))
  have hPlain : s.code.strip.unifyLineEnds = s.code.strip :=
    Text.unifyLineEnds_eq_self fun h => hReturn ((Text.strip_infix s.code).subset h)
  rw [s.unifyLineEnds_write, hPlain, ofText,
    block?_layout (mt (Fence.infix_unifyLineEnds_iff s.heading).1 hHeading) hStripped,
    Option.getD_some, Text.strip_append_singleton _ rfl, Text.strip_cons rfl, Text.strip_strip]

end SongSheet

/-! ### Saving and reading -/

namespace SaveCall

def sheet (c : SaveCall) : SongSheet := Song.sheetOf c.code c.title c.prompt c.now

/-- What is read of the file that a call writes. -/
def reading (c : SaveCall) : SongSheet := SongSheet.ofText c.sheet.write.unifyLineEnds

/-- A call with code that can stand in a block and a time that can be told. -/
structure Sound (c : SaveCall) : Prop where
  filled : c.code.isBlankText = false
  unfenced : ¬Fence.mark <:+: c.code
  oneEnd : '\r' ∉ c.code
  writable : c.now.Writable
  told : c.now.offset = none → c.now.date ≠ ⟨1, 1, 1⟩

/-- A call whose file is read back: whatever folder it is saved in, and whenever the file is changed
last, the song has the code and the time, and the prompt if there is one. -/
def Survives (c : SaveCall) : Prop :=
  ∀ folder : SongFolder, ∃ name text,
    folder.newFile c.code c.title c.prompt c.now = .ok (name, text) ∧
    ∀ modified, ∃ t song, Song.ofFile name (.text text) modified = .ok (t, song) ∧
      song.sheet.code = c.code.strip ∧ song.sheet.created = c.now.toText ∧
      ∀ p, Song.onOneLine c.prompt = some p → song.sheet.prompt = some p

/-- The song of a file that a call wrote, under the name of the file and as it is dated. -/
def listed (c : SaveCall) (name created : Text) : ListedSong where
  sheet := { c.reading with
    title := if c.reading.title.isEmpty then Song.stem name else c.reading.title
    created := created }
  fileName := name

theorem ofFile_write (c : SaveCall) (name : Text) (modified : Int) :
    Song.ofFile name (.text c.sheet.write) modified =
      (Song.dated c.reading.created modified).map fun (t, created) =>
        (t, c.listed name created) := by
  have hRead : (FileContent.text c.sheet.write).read = .ok c.sheet.write.unifyLineEnds := rfl
  simp only [Song.ofFile, hRead, bind, Except.bind, reading, listed]
  cases Song.dated (SongSheet.ofText c.sheet.write.unifyLineEnds).created modified <;> rfl

theorem ofFile_write_eq_ok_iff {c : SaveCall} {name : Text} {modified t : Int} {song : ListedSong} :
    Song.ofFile name (.text c.sheet.write) modified = .ok (t, song) ↔
      ∃ created, Song.dated c.reading.created modified = .ok (t, created) ∧
        c.listed name created = song := by
  rw [ofFile_write]
  cases Song.dated c.reading.created modified with
  | error e => simp [Except.map]
  | ok d => simp [Except.map, Prod.ext_iff, and_assoc, eq_comm]

/-- Whether a call survives is told by what is read of the text of its file. -/
theorem survives_iff {c : SaveCall} (hFilled : c.code.isBlankText = false) :
    c.Survives ↔ c.reading.code = c.code.strip ∧
      (∀ modified, ∃ t, Song.dated c.reading.created modified = .ok (t, c.now.toText)) ∧
      ∀ p, Song.onOneLine c.prompt = some p → c.reading.prompt = some p := by
  have hNew (folder : SongFolder) : folder.newFile c.code c.title c.prompt c.now =
      .ok (c.newName folder, c.sheet.write) := by
    rw [SongFolder.newFile, hFilled]
    rfl
  constructor
  · intro h
    obtain ⟨name, text, hFile, hRead⟩ := h []
    obtain ⟨rfl, rfl⟩ := Prod.mk.inj (Except.ok.inj ((hNew []).symm.trans hFile))
    have hDated (modified : Int) : ∃ t, c.reading.code = c.code.strip ∧
        Song.dated c.reading.created modified = .ok (t, c.now.toText) ∧
        ∀ p, Song.onOneLine c.prompt = some p → c.reading.prompt = some p := by
      obtain ⟨t, song, hSong, hCode, hCreated, hPrompt⟩ := hRead modified
      obtain ⟨created, hDate, rfl⟩ := ofFile_write_eq_ok_iff.1 hSong
      obtain rfl : created = c.now.toText := hCreated
      exact ⟨t, hCode, hDate, hPrompt⟩
    obtain ⟨-, hCode, -, hPrompt⟩ := hDated 0
    exact ⟨hCode, fun modified => (hDated modified).imp fun _ h => h.2.1, hPrompt⟩
  · rintro ⟨hCode, hDated, hPrompt⟩ folder
    refine ⟨_, _, hNew folder, fun modified => ?_⟩
    obtain ⟨t, hDate⟩ := hDated modified
    exact ⟨t, _, ofFile_write_eq_ok_iff.2 ⟨_, hDate, rfl⟩, hCode, rfl, hPrompt⟩

end SaveCall

/-! ### Harmless titles and prompts -/

namespace Song
open SongSheet (said? createdStart promptStart)

/-- A title whose lines below the first leave the line with the time in sight, and say no time
themselves. -/
structure LeavesTime (title : Text) : Prop where
  short : title.allLines.tail.length ≤ 6
  silent : title.allLines.tail.findSome? (said? createdStart) = none

/-- A title on one line leaves the time alone. -/
theorem leavesTime_of_tail_eq_nil {title : Text} (hLine : title.allLines.tail = []) :
    LeavesTime title :=
  ⟨by simp [hLine], by simp [hLine]⟩

/-- A title and a prompt that leave the other fields alone. There is no fence in them; the title
leaves the time alone; and if there is a prompt, the lines of the title below its first say the same
one, or none, and leave its line in sight. -/
structure Harmless (title : Text) (prompt : Option Text) : Prop extends LeavesTime title where
  unfencedTitle : ¬Fence.mark <:+: title
  unfencedPrompt : ∀ p ∈ prompt, ¬Fence.mark <:+: p
  prompt : ∀ p ∈ prompt, title.allLines.tail.findSome? (said? promptStart) = some p ∨
    title.allLines.tail.findSome? (said? promptStart) = none ∧ title.allLines.tail.length ≤ 5

/-- A title on one line says nothing but itself. -/
theorem harmless_iff_of_tail_eq_nil {title : Text} {prompt : Option Text}
    (hLine : title.allLines.tail = []) :
    Harmless title prompt ↔ ¬Fence.mark <:+: title ∧ ∀ p ∈ prompt, ¬Fence.mark <:+: p := by
  constructor
  · exact fun h => ⟨h.unfencedTitle, h.unfencedPrompt⟩
  · rintro ⟨hTitle, hPrompt⟩
    exact ⟨leavesTime_of_tail_eq_nil hLine, hTitle, hPrompt, fun p _ => .inr (by simp [hLine])⟩

theorem tail_allLines_fallbackTitle (now : Stamp) : (fallbackTitle now).allLines.tail = [] := by
  have hFallback := fitsLine_fallbackTitle now
  rw [Text.allLines_eq_singleton hFallback.filled hFallback.unbroken, List.tail_cons]

/-- The fallback for a missing title is as harmless as no title. -/
theorem harmless_titleOf_iff (title : Option Text) (prompt : Option Text) (now : Stamp) :
    Harmless (titleOf title now) prompt ↔ Harmless (title.getD []).strip prompt := by
  rw [titleOf_eq]
  split
  · next hEmpty =>
      have hPlain : ¬Fence.mark <:+: fallbackTitle now := by
        intro hMark
        have hBackquote := not_mem_fallbackTitle (c := '\x60') (by decide) (by decide) now
        exact hBackquote (hMark.subset List.mem_cons_self)
      have hEmptyLine : (title.getD []).strip.allLines.tail = [] := by
        rw [hEmpty]
        rfl
      rw [harmless_iff_of_tail_eq_nil (tail_allLines_fallbackTitle now),
        harmless_iff_of_tail_eq_nil hEmptyLine, hEmpty]
      simp [hPlain, Fence.mark_ne_nil]
  · rfl

end Song

namespace SaveCall
open SongSheet (said? createdStart promptStart)
variable {c : SaveCall}

/-- What is read of the header is read off the title and the fields. -/
theorem exists_reading_eq (c : SaveCall) : ∃ block,
    c.reading.created = ((c.sheet.lowerLines block).findSome? (said? createdStart)).getD [] ∧
    c.reading.prompt = (c.sheet.lowerLines block).findSome? (said? promptStart) := by
  have hFormed : c.sheet.WellFormed := Song.wellFormed_sheetOf ..
  obtain ⟨name, block, hHeader⟩ := hFormed.exists_header_write
  have hReading := (SongSheet.Header.ofText_unifyLineEnds c.sheet.write).trans hHeader
  exact ⟨block, congrArg SongSheet.Header.created hReading,
    congrArg SongSheet.Header.prompt hReading⟩

/-- With a harmless title and a harmless prompt, all fields are read back. -/
theorem Sound.survives (hSound : c.Sound) (h : Song.Harmless c.sheet.title c.sheet.prompt) :
    c.Survives := by
  have hFormed : c.sheet.WellFormed := Song.wellFormed_sheetOf ..
  obtain ⟨block, hCreated, hPrompt⟩ := c.exists_reading_eq
  have hHeading : ¬Fence.mark <:+: c.sheet.heading := by
    rw [SongSheet.infix_heading_iff]
    rintro (hTitle | hCreated | ⟨p, hp, hPrompt⟩)
    · exact h.unfencedTitle hTitle
    · exact Song.not_infix_toText c.now hCreated
    · exact h.unfencedPrompt p hp hPrompt
  rw [hFormed.findSome?_created_of_silent block h.short h.silent, Option.getD_some] at hCreated
  refine (survives_iff hSound.filled).2 ⟨?_, fun modified => ?_, fun p hp => ?_⟩
  · exact SongSheet.code_ofText_unifyLineEnds_write (s := c.sheet) hHeading hSound.unfenced
      hSound.oneEnd
  · have hStamp := Song.createdStamp?_toText hSound.writable
    change c.reading.created = c.now.toText at hCreated
    rw [hCreated]
    have hOutcome := @Song.dated_of_read _ modified _ hStamp
    rcases hOutcome with ⟨hDated, -⟩ | ⟨year, -, hNever⟩
    · exact ⟨_, hDated⟩
    · obtain ⟨hLocal, hDay⟩ := (Song.undatable_iff_of_read hStamp).1 hNever
      exact absurd hDay (hSound.told (Option.map_eq_none_iff.1 hLocal))
  · rw [hPrompt]
    rcases h.prompt p hp with hSame | ⟨hSilent, hShort⟩
    · rw [SongSheet.WellFormed.lowerLines_eq (Nat.le_succ_of_le h.short), List.findSome?_append,
        hSame]
      rfl
    · exact hFormed.findSome?_prompt_of_silent block hp hShort hSilent

/-- Behind a fence in the heading, what is read for the code does not depend on the code. -/
theorem reading_code_eq_of_fenced {title prompt : Option Text} {now : Stamp} {first : Text}
    (hMark : Fence.mark <:+: (Song.sheetOf first title prompt now).heading) (second : Text) :
    (SaveCall.mk first title prompt now).reading.code =
      (SaveCall.mk second title prompt now).reading.code := by
  obtain ⟨block, hBlock⟩ :=
    SongSheet.exists_block?_layout ((Fence.infix_unifyLineEnds_iff _).2 hMark)
  have hCode (code : Text) : (SaveCall.mk code title prompt now).reading.code = block.strip := by
    have hText := (Song.sheetOf code title prompt now).unifyLineEnds_write
    have hFound := hBlock (Song.sheetOf code title prompt now).code.strip.unifyLineEnds
    have hSame : (Song.sheetOf code title prompt now).heading =
      (Song.sheetOf first title prompt now).heading := rfl
    rw [reading, sheet, hText, SongSheet.ofText, hSame, hFound, Option.getD_some]
  rw [hCode, hCode]

/-- A title that says a time, or that hides the line with the time, fixes the time that is read. -/
theorem exists_reading_created {title : Text} (hLoud : ¬Song.LeavesTime title) :
    ∃ created, ∀ c : SaveCall, c.sheet.title = title → c.reading.created = created := by
  by_cases hShort : title.allLines.tail.length ≤ 6
  · obtain ⟨x, hx⟩ := Option.ne_none_iff_exists'.1 fun hSilent => hLoud ⟨hShort, hSilent⟩
    refine ⟨x, fun c hTitle => ?_⟩
    subst hTitle
    obtain ⟨block, hCreated, -⟩ := c.exists_reading_eq
    rw [hCreated, SongSheet.WellFormed.lowerLines_eq (Nat.le_succ_of_le hShort),
      List.findSome?_append, hx]
    rfl
  · refine ⟨((title.allLines.tail.take 7).findSome? (said? createdStart)).getD [],
      fun c hTitle => ?_⟩
    subst hTitle
    obtain ⟨block, hCreated, -⟩ := c.exists_reading_eq
    rw [hCreated, SongSheet.lowerLines, List.take_append_of_le_length (by omega)]

/-- If two codes are read back, there is no fence in the heading: behind one, what is left to read
would be both of them. -/
theorem not_infix_heading_of_reading_code {title prompt : Option Text} {now : Stamp}
    {first second : Text} (hApart : first.strip ≠ second.strip)
    (hFirst : (SaveCall.mk first title prompt now).reading.code = first.strip)
    (hSecond : (SaveCall.mk second title prompt now).reading.code = second.strip) :
    ¬Fence.mark <:+: (Song.sheetOf first title prompt now).heading := by
  intro hMark
  have hSame := reading_code_eq_of_fenced hMark second
  rw [hFirst, hSecond] at hSame
  exact hApart hSame

/-- If two times are read back, the title leaves the time alone: what it fixes is not both of
them. -/
theorem leavesTime_of_dated {code : Text} {title prompt : Option Text} {first second : Stamp}
    (hApart : first.toText ≠ second.toText)
    (hFirst : ∃ t, Song.dated (SaveCall.mk code title prompt first).reading.created 0 =
      .ok (t, first.toText))
    (hSecond : ∃ t, Song.dated (SaveCall.mk code title prompt second).reading.created 0 =
      .ok (t, second.toText)) :
    Song.LeavesTime (Song.titleOf title first) := by
  by_contra hLoud
  have hGiven : (title.getD []).strip ≠ [] := by
    intro hEmpty
    rw [Song.titleOf_eq, if_pos hEmpty] at hLoud
    exact hLoud (Song.leavesTime_of_tail_eq_nil (Song.tail_allLines_fallbackTitle first))
  have hSame : Song.titleOf title second = Song.titleOf title first := by
    rw [Song.titleOf_eq, Song.titleOf_eq, if_neg hGiven, if_neg hGiven]
  obtain ⟨created, hCreated⟩ := exists_reading_created hLoud
  obtain ⟨t, ht⟩ := hFirst
  obtain ⟨u, hu⟩ := hSecond
  rw [hCreated ⟨code, title, prompt, first⟩ rfl] at ht
  rw [hCreated ⟨code, title, prompt, second⟩ hSame] at hu
  exact hApart (Prod.mk.inj (Except.ok.inj (ht.symm.trans hu))).2

def noon : Stamp := ⟨⟨2024, 5, 1⟩, 12, 0, 0, 0, some 0⟩

def evening : Stamp := ⟨⟨2024, 5, 1⟩, 18, 0, 0, 0, some 0⟩

/-- Two codes and two times to tell calls apart by. -/
theorem sound_trial {code : Text} {now : Stamp} (hCode : code ∈ [['a'], ['b']])
    (hNow : now ∈ [noon, evening]) (title prompt : Option Text) :
    Sound ⟨code, title, prompt, now⟩ := by
  have hCodes : ∀ code ∈ [['a'], ['b']], Text.isBlankText code = false ∧
      Text.contains code Fence.mark = false ∧ '\r' ∉ code := by decide
  have hTimes : ∀ now ∈ [noon, evening], now.isValid ∧
      (∀ o ∈ now.offset, o.natAbs < Stamp.perDay) ∧ now.offset ≠ none := by decide
  obtain ⟨hFilled, hUnfenced, hReturn⟩ := hCodes code hCode
  obtain ⟨hValid, hOffset, hUniversal⟩ := hTimes now hNow
  exact ⟨hFilled, Text.not_infix_of_contains_eq_false hUnfenced, hReturn, ⟨hValid, hOffset⟩,
    fun hLocal => absurd hLocal hUniversal⟩

/-- A title and a prompt with which every call survives are harmless. -/
theorem harmless_of_survives {title prompt : Option Text}
    (h : ∀ c : SaveCall, c.title = title → c.prompt = prompt → c.Sound → c.Survives) :
    Song.Harmless (title.getD []).strip (Song.onOneLine prompt) := by
  have hReads {code : Text} {now : Stamp} (hCode : code ∈ [['a'], ['b']])
      (hNow : now ∈ [noon, evening]) :=
    have hSound := sound_trial hCode hNow title prompt
    (survives_iff hSound.filled).1 (h ⟨code, title, prompt, now⟩ rfl rfl hSound)
  have hFirst : ['a'] ∈ [['a'], ['b']] := List.mem_cons_self
  have hSecond : ['b'] ∈ [['a'], ['b']] := List.mem_cons_of_mem _ List.mem_cons_self
  have hNoon : noon ∈ [noon, evening] := List.mem_cons_self
  have hEvening : evening ∈ [noon, evening] := List.mem_cons_of_mem _ List.mem_cons_self
  have hHeading : ¬Fence.mark <:+: (Song.sheetOf ['a'] title prompt noon).heading :=
    not_infix_heading_of_reading_code (by decide) (hReads hFirst hNoon).1 (hReads hSecond hNoon).1
  rw [SongSheet.infix_heading_iff, not_or, not_or] at hHeading
  obtain ⟨hTitle, -, hPrompt⟩ := hHeading
  have hTime : Song.LeavesTime (Song.titleOf title noon) :=
    leavesTime_of_dated (by decide +kernel) ((hReads hFirst hNoon).2.1 0)
      ((hReads hFirst hEvening).2.1 0)
  rw [← Song.harmless_titleOf_iff title _ noon]
  refine ⟨hTime, hTitle, fun p hp hMark => hPrompt ⟨p, hp, hMark⟩, fun p hp => ?_⟩
  obtain ⟨block, -, hRead⟩ := exists_reading_eq ⟨['a'], title, prompt, noon⟩
  exact SongSheet.said_of_findSome?_prompt hTime.short
    (hRead.symm.trans ((hReads hFirst hNoon).2.2 p hp))

/-- The title and the prompt of a song leave its code and its time alone, and are read back
themselves as far as the prompt goes, exactly when they are harmless. -/
theorem survives_iff_harmless (title prompt : Option Text) :
    (∀ c : SaveCall, c.title = title → c.prompt = prompt → c.Sound → c.Survives) ↔
      Song.Harmless (title.getD []).strip (Song.onOneLine prompt) := by
  constructor
  · exact harmless_of_survives
  · rintro h c rfl rfl hSound
    exact hSound.survives ((Song.harmless_titleOf_iff c.title _ c.now).2 h)

/-- A song that is saved with the given title and prompt. -/
def kick (title prompt : Option Text) : SaveCall :=
  ⟨"setcpm(90)\n$: s(\"bd\")", title, prompt, noon⟩

theorem sound_kick (title prompt : Option Text) : (kick title prompt).Sound where
  filled := (by decide : Text.isBlankText "setcpm(90)\n$: s(\"bd\")" = false)
  unfenced := Text.not_infix_of_contains_eq_false
    (by decide : Text.contains "setcpm(90)\n$: s(\"bd\")" Fence.mark = false)
  oneEnd := (by decide : '\r' ∉ "setcpm(90)\n$: s(\"bd\")".toList)
  writable := (sound_trial List.mem_cons_self List.mem_cons_self title prompt).writable
  told := (sound_trial List.mem_cons_self List.mem_cons_self title prompt).told

def fencedPrompt : Text := "use ```s(\"hh\")``` for the hats"

/-- A second line that is an ordinary one does no harm, and a prompt with code in a fence does. -/
theorem survives_iff_harmless_at_night :
    (∀ c : SaveCall, c.title = some "Night\nin D minor".toList → c.prompt = some "dark".toList →
      c.Sound → c.Survives) ∧
    ¬∀ c : SaveCall, c.title = some "Night".toList → c.prompt = some fencedPrompt →
      c.Sound → c.Survives := by
  constructor
  · refine (survives_iff_harmless _ _).2 ⟨⟨?_, ?_⟩, ?_, ?_, ?_⟩
    · decide +kernel
    · decide +kernel
    · exact Text.not_infix_of_contains_eq_false (by decide +kernel)
    · rintro p hp
      obtain rfl : "dark".toList = p := Option.some.inj hp
      exact Text.not_infix_of_contains_eq_false (by decide)
    · exact fun p _ => .inr (by decide +kernel)
  · intro h
    refine ((survives_iff_harmless _ _).1 h).unfencedPrompt fencedPrompt ?_ ?_
    · exact (by decide +kernel : Song.onOneLine (some fencedPrompt) = some fencedPrompt)
    · exact (Text.contains_iff_infix _ _).1 (by decide +kernel)

/-- It is not so that every saved song is read back: its prompt may bring in another code, and its
title another time. -/
theorem fields_replaced :
    (kick (some "Night") (some fencedPrompt)).reading.code = "s(\"hh\")" ∧
    (kick (some "Night\ncreated: 2001-01-01") none).reading.created = "2001-01-01" ∧
    ¬∀ c : SaveCall, c.Sound → c.Survives := by
  have hCode : (kick (some "Night") (some fencedPrompt)).reading.code = "s(\"hh\")" := by
    decide +kernel
  refine ⟨hCode, by decide +kernel, fun h => ?_⟩
  have hSound := sound_kick (some "Night") (some fencedPrompt)
  have hRead := ((survives_iff hSound.filled).1 (h _ hSound)).1
  rw [hCode] at hRead
  exact absurd hRead (by decide +kernel)

end SaveCall

end Composer
