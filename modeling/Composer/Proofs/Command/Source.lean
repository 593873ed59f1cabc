import Composer.Command.Run
import Composer.Proofs.Response.Finding
import Composer.Proofs.Song.Sheet
import Composer.Proofs.Text.LineEnds

/-!
The code of a text that a command is given. A text that begins with a heading is read as a song, and
any other text as a response. Both readings find the code of the one block of a text, and they
differ only in the tags that they leave out: a song has no tag but its own, which it has in any
letter case. The code of a song file is found in either case.
-/

namespace Composer

/-! ### Blocks of songs and of responses -/

namespace SongSheet

/-- A block whose tag means one thing to a song and another to a response: a tag of a response that
is none of a song, or a song's own tag in other letters. -/
def Disputed (between : Text) : Prop :=
  "javascript".toList <+: between ∨ "js".toList <+: between ∨
    (Text.afterFolded? tag between).isSome ∧ ¬tag <+: between

/-- A response leaves one tag out; a line feed behind it is white space. -/
theorem strip_content (between : Text) :
    (Fence.content between).strip =
      ((Fence.tags.findSome? (Text.after? · between)).getD between).strip := by
  rw [Fence.content]
  generalize (Fence.tags.findSome? (Text.after? · between)).getD between = rest
  cases hFeed : Text.after? [Text.lineFeed] rest with
  | none => rfl
  | some u =>
      rw [Text.eq_append_of_after?_eq_some hFeed, List.singleton_append, Text.strip_cons rfl]
      rfl

/-- A song leaves something out only if there is its tag, and then it is no white space. -/
theorem strip_untagged_eq_strip_iff (between : Text) :
    (untagged between).strip = between.strip ↔ Text.afterFolded? tag between = none := by
  rw [untagged]
  cases hFound : Text.afterFolded? tag between with
  | none => simp
  | some rest =>
      obtain ⟨c, spelled, rfl, hLetter⟩ := Text.exists_of_afterFolded?_eq_some (l := 's') hFound
      have hc : isBlank c = false := by
        rw [← Bool.not_eq_true]
        intro hBlank
        have hNoLetter : isLetterFolded 's' c = false :=
          Text.isLetterFolded_of_isBlank (by decide) hBlank
        exact absurd hLetter (by simp [hNoLetter])
      simpa using (Text.strip_append_ne_strip hc spelled rest).symm

/-- The two readings of a block agree but for a disputed tag. -/
theorem strip_untagged_eq_iff (between : Text) :
    (untagged between).strip = (Fence.content between).strip ↔ ¬Disputed between := by
  rw [strip_content]
  by_cases hSong : tag <+: between
  · obtain ⟨rest, rfl⟩ := hSong
    have hSong : untagged (tag ++ rest) = rest := rfl
    have hResponse : Fence.tags.findSome? (Text.after? · (tag ++ rest)) = some rest := rfl
    have hLetter : some 'j' ≠ some 's' := by decide
    rw [hSong, hResponse]
    refine iff_of_true rfl ?_
    rintro (⟨u, hu⟩ | ⟨u, hu⟩ | ⟨-, hOther⟩)
    · exact hLetter (congrArg List.head? hu)
    · exact hLetter (congrArg List.head? hu)
    · exact hOther ⟨rest, rfl⟩
  by_cases hLong : "javascript".toList <+: between
  · obtain ⟨rest, rfl⟩ := id hLong
    have hResponse : Fence.tags.findSome? (Text.after? · ("javascript".toList ++ rest)) =
      some rest := rfl
    rw [hResponse]
    refine iff_of_false ?_ (not_not.2 (.inl hLong))
    exact Text.strip_append_ne_strip (by decide) "avascript" rest
  have hNoLong := (Text.after?_eq_none_iff _ _).2 hLong
  by_cases hShort : "js".toList <+: between
  · obtain ⟨rest, rfl⟩ := id hShort
    have hResponse : Fence.tags.findSome? (Text.after? · ("js".toList ++ rest)) = some rest := by
      rw [Fence.tags, List.findSome?_cons, hNoLong]
      rfl
    rw [hResponse]
    refine iff_of_false ?_ (not_not.2 (.inr (.inl hShort)))
    exact Text.strip_append_ne_strip (by decide) ['s'] rest
  have hResponse : Fence.tags.findSome? (Text.after? · between) = none := by
    simp only [List.findSome?_eq_none_iff, Text.after?_eq_none_iff, Fence.tags, List.mem_cons,
      List.not_mem_nil, or_false, forall_eq_or_imp, forall_eq]
    exact ⟨hLong, hShort, hSong⟩
  rw [hResponse, Option.getD_none, strip_untagged_eq_strip_iff, Disputed, or_iff_right hLong,
    or_iff_right hShort, and_iff_left hSong, Option.not_isSome_iff_eq_none]

end SongSheet

/-! ### Texts with one block -/

section
variable {t block : Text}

/-- A text with a block has a fence. -/
theorem Fence.mark_infix_of_blocks {more : List Text} (h : blocks t = block :: more) :
    mark <:+: t := by
  by_contra hNone
  have hPairs : pairs t = [] := pairs_of_unopened ((Text.cut?_eq_none_iff t).2 hNone)
  rw [blocks, hPairs] at h
  exact absurd h (by simp)

theorem Fence.exists_pairs_of_blocks (h : blocks t = [block]) :
    ∃ between, pairs t = [between] ∧ block = content between := by
  obtain ⟨between, hPairs, hContent⟩ := List.map_eq_singleton_iff.1 h
  exact ⟨between, hPairs, hContent.symm⟩

theorem Response.artifact_of_blocks (h : Fence.blocks t = [block])
    (hFilled : block.isBlankText = false) : artifact t = .ok block.strip :=
  (artifact_eq_ok_iff t _).2 (.inl ⟨block, (Fence.blocks_strip t).trans h, hFilled, rfl⟩)

/-- A text that begins with a heading, after white space. -/
def Text.BeginsWithHeading (t : Text) : Prop := t.skipBlanks.startsWith SongSheet.titleStart

namespace Command

theorem codeOf_of_heading (hMark : Fence.mark <:+: t) (hHeading : t.BeginsWithHeading) :
    codeOf t = .ok (SongSheet.ofText t).code := by
  have hFence : t.contains Fence.mark = true := (Text.contains_iff_infix t _).2 hMark
  have hSong : t.skipBlanks.startsWith SongSheet.titleStart = true := hHeading
  simp [codeOf, hFence, hSong]

theorem codeOf_of_not_heading (hMark : Fence.mark <:+: t) (hHeading : ¬t.BeginsWithHeading) :
    codeOf t = Response.artifact t := by
  have hFence : t.contains Fence.mark = true := (Text.contains_iff_infix t _).2 hMark
  have hSong : ¬t.skipBlanks.startsWith SongSheet.titleStart = true := hHeading
  simp [codeOf, hFence, hSong]

/-- The code of a text with one block is the code of a response, but for a text that begins with a
heading and has a disputed tag. -/
theorem codeOf_eq_artifact_iff {between : Text} (hPairs : Fence.pairs t = [between])
    (hFilled : (Fence.content between).isBlankText = false) :
    codeOf t = Response.artifact t ↔ ¬(t.BeginsWithHeading ∧ SongSheet.Disputed between) := by
  have hBlocks : Fence.blocks t = [Fence.content between] := by
    rw [Fence.blocks, hPairs]
    rfl
  have hMark := Fence.mark_infix_of_blocks hBlocks
  by_cases hHeading : t.BeginsWithHeading
  · rw [codeOf_of_heading hMark hHeading, Response.artifact_of_blocks hBlocks hFilled,
      SongSheet.ofText, SongSheet.block?_of_pairs hPairs, Option.getD_some, Except.ok.injEq,
      SongSheet.strip_untagged_eq_iff]
    exact not_congr (and_iff_right hHeading).symm
  · exact iff_of_true (codeOf_of_not_heading hMark hHeading) fun h => hHeading h.1

end Command

end

/-! ### Song files -/

namespace SongSheet

/-- A sheet that holds no fence but those of its block. -/
structure Unfenced (s : SongSheet) : Prop where
  title : ¬Fence.mark <:+: s.title
  created : ¬Fence.mark <:+: s.created
  prompt : ∀ p ∈ s.prompt, ¬Fence.mark <:+: p
  code : ¬Fence.mark <:+: s.code

namespace Unfenced
variable {s : SongSheet}

theorem heading (h : s.Unfenced) : ¬Fence.mark <:+: s.heading := by
  rw [infix_heading_iff]
  rintro (hTitle | hCreated | ⟨p, hp, hPrompt⟩)
  · exact h.title hTitle
  · exact h.created hCreated
  · exact h.prompt p hp hPrompt

theorem stripped (h : s.Unfenced) : ¬Fence.mark <:+: s.code.strip :=
  fun hMark => h.code (hMark.trans (Text.strip_infix s.code))

end Unfenced

end SongSheet

namespace Command

theorem codeOf_layout {heading code rest : Text} (hTitle : heading = SongSheet.titleStart ++ rest)
    (hHeading : ¬Fence.mark <:+: heading) (hCode : ¬Fence.mark <:+: code) :
    codeOf (SongSheet.layout heading code) = .ok code.strip := by
  have hMark : Fence.mark <:+: SongSheet.layout heading code := by
    refine (List.IsPrefix.isInfix (List.prefix_append _ _)).trans
      ((List.suffix_cons Text.lineFeed _).trans (List.suffix_append heading _)).isInfix
  have hBegins : (SongSheet.layout heading code).BeginsWithHeading := by
    rw [Text.BeginsWithHeading, SongSheet.layout, hTitle]
    rfl
  rw [codeOf_of_heading hMark hBegins, SongSheet.ofText, SongSheet.block?_layout hHeading hCode,
    Option.getD_some, Text.strip_append_singleton _ rfl, Text.strip_cons rfl]

theorem codeOf_of_unfenced {t : Text} (h : ¬Fence.mark <:+: t) : codeOf t = .ok t := by
  have hFence : t.contains Fence.mark = false := by
    rw [← Bool.not_eq_true, Text.contains_iff_infix]
    exact h
  simp [codeOf, hFence]

section
variable {song : SongSheet} (h : song.Unfenced)
include h

/-- The code of a song file is the code of the song. -/
theorem codeOf_write : codeOf song.write = .ok song.code.strip := by
  obtain ⟨rest, hTitle⟩ := song.exists_heading_eq
  rw [SongSheet.write_eq_layout, codeOf_layout hTitle h.heading h.stripped, Text.strip_strip]

/-- So it is when the line ends of the file are unified. -/
theorem codeOf_unifyLineEnds_write :
    codeOf song.write.unifyLineEnds = codeOf song.code.strip.unifyLineEnds := by
  have hHeading := mt (Fence.infix_unifyLineEnds_iff song.heading).1 h.heading
  have hCode := mt (Fence.infix_unifyLineEnds_iff song.code.strip).1 h.stripped
  obtain ⟨rest, hTitle⟩ := song.exists_heading_eq
  have hUnified : song.heading.unifyLineEnds =
      SongSheet.titleStart ++ Text.unifyLineEnds (rest ++ [Text.lineFeed]) := by
    rw [hTitle]
    rfl
  rw [song.unifyLineEnds_write, codeOf_layout hUnified hHeading hCode, codeOf_of_unfenced hCode,
    Text.strip_unifyLineEnds_strip]

end

end Command

/-- Surroundings in which a command reads the given text, wherever it reads it. -/
def Surroundings.holding (s : Surroundings) (t : Text) : Surroundings :=
  { s with input := t, file := .ok (.text t) }

namespace Command

theorem codeAt_holding (s : Surroundings) (path t : Text) :
    codeAt (s.holding t) path =
      (codeOf (if path = inputPath then t else t.unifyLineEnds)).mapError .extraction := by
  unfold codeAt textAt
  split <;> rfl

/-- A song file is judged as its code is. -/
theorem runValidate_write {song : SongSheet} (h : song.Unfenced) (s : Surroundings) (path : Text)
    (overrides : List (Text × Json)) :
    runValidate (s.holding song.write) path overrides =
      runValidate (s.holding song.code.strip) path overrides := by
  have hCode : codeAt (s.holding song.write) path = codeAt (s.holding song.code.strip) path := by
    rw [codeAt_holding, codeAt_holding]
    split
    · rw [codeOf_write h, codeOf_of_unfenced h.stripped]
    · rw [codeOf_unifyLineEnds_write h]
  rw [runValidate, hCode, runValidate]

/-- How a command reads the code of a text. If there is one block, and it is not blank, the code is
that of a response, unless the text begins with a heading and the tag of the block means another
thing to a song. The code of a song file whose fields hold no fence is the code of the song, and it
is judged as the code alone is. -/
theorem codeOf_reads_blocks (t block : Text) (song : SongSheet) :
    (Fence.blocks t = [block] → block.isBlankText = false →
      Response.artifact t = .ok block.strip ∧
      ∃ between, Fence.pairs t = [between] ∧ block = Fence.content between ∧
        (codeOf t = Response.artifact t ↔
          ¬(t.BeginsWithHeading ∧ SongSheet.Disputed between))) ∧
    (song.Unfenced → codeOf song.write = .ok song.code.strip ∧
      ∀ (s : Surroundings) path overrides, runValidate (s.holding song.write) path overrides =
        runValidate (s.holding song.code.strip) path overrides) := by
  refine ⟨fun hBlock hFilled => ⟨Response.artifact_of_blocks hBlock hFilled, ?_⟩,
    fun h => ⟨codeOf_write h, runValidate_write h⟩⟩
  obtain ⟨between, hPairs, rfl⟩ := Fence.exists_pairs_of_blocks hBlock
  exact ⟨between, hPairs, rfl, codeOf_eq_artifact_iff hPairs hFilled⟩

/-- A text that begins with a heading, and has its code in a block with the tag of a response. -/
def nightText : Text := "# Night\n\n```javascript\nsetcpm(90)\n```\n"

theorem pairs_nightText : Fence.pairs nightText = ["javascript\nsetcpm(90)\n".toList] := by
  have hOpen : Text.cut? Fence.mark nightText =
      some ("# Night\n\n".toList, "javascript\nsetcpm(90)\n```\n".toList) := by decide +kernel
  have hClose : Text.cut? Fence.mark "javascript\nsetcpm(90)\n```\n".toList =
      some ("javascript\nsetcpm(90)\n".toList, "\n".toList) := by decide +kernel
  rw [Fence.pairs_of_closed hOpen hClose, Fence.pairs_of_unopened (by decide)]

theorem blocks_nightText : Fence.blocks nightText = ["setcpm(90)\n".toList] := by
  rw [Fence.blocks, pairs_nightText]
  decide +kernel

def nightSong : SongSheet := ⟨"Night", "2024-05-01", some "dark", "setcpm(90)"⟩

theorem unfenced_nightSong : nightSong.Unfenced where
  title := Text.not_infix_of_contains_eq_false (by decide)
  created := Text.not_infix_of_contains_eq_false (by decide)
  prompt p hp := by
    obtain rfl : "dark".toList = p := Option.some.inj hp
    exact Text.not_infix_of_contains_eq_false (by decide)
  code := Text.not_infix_of_contains_eq_false (by decide)

/-- A response has the code alone, and the command does not read it so; of a song file it reads the
code alone. -/
theorem codeOf_reads_blocks_of_nightText :
    Response.artifact nightText = .ok "setcpm(90)".toList ∧
      codeOf nightText ≠ Response.artifact nightText ∧
      codeOf nightSong.write = .ok "setcpm(90)".toList := by
  obtain ⟨hBlock, hSong⟩ := codeOf_reads_blocks nightText "setcpm(90)\n" nightSong
  obtain ⟨hArtifact, between, hPairs, -, hSame⟩ := hBlock blocks_nightText (by decide +kernel)
  obtain rfl := List.head_eq_of_cons_eq (pairs_nightText.symm.trans hPairs)
  refine ⟨hArtifact, fun hEqual => hSame.1 hEqual ⟨?_, .inl ?_⟩, (hSong unfenced_nightSong).1⟩
  · exact (by decide +kernel : nightText.skipBlanks.startsWith SongSheet.titleStart = true)
  · exact List.prefix_append "javascript".toList "\nsetcpm(90)\n".toList

/-- It is not so that the code of every text with one block is that of a response: it may have the
tag for its first line. -/
theorem code_begins_with_tag :
    codeOf nightText = .ok "javascript\nsetcpm(90)".toList ∧
    ¬∀ t block, Fence.blocks t = [block] → block.isBlankText = false →
      codeOf t = Response.artifact t := by
  have hCode : codeOf nightText = .ok "javascript\nsetcpm(90)".toList := by decide +kernel
  refine ⟨hCode, fun h => ?_⟩
  have hSame := h nightText _ blocks_nightText (by decide +kernel)
  rw [hCode, Response.artifact_of_blocks blocks_nightText (by decide +kernel)] at hSame
  exact absurd (Except.ok.inj hSame) (by decide +kernel)

end Command

end Composer
