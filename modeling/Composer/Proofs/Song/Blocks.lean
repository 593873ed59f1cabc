import Composer.Proofs.Response.Fences
import Composer.Proofs.Text.Letters
import Composer.Proofs.Text.LineEnds
import Composer.Song.Sheet

/-!
The block of a song: what stands between the first two fences of a text, without the tag of a song.
In a text that is laid out as a song file this is the code, unless there is a fence before it; then
the code makes no difference to the block.
-/

namespace Composer

theorem Fence.infix_unifyLineEnds_iff (t : Text) : mark <:+: t.unifyLineEnds ↔ mark <:+: t := by
  have hMark : mark.OnLine := by
    unfold Text.OnLine
    decide
  exact Text.infix_unifyLineEnds_iff hMark mark_ne_nil

namespace SongSheet

/-- What a song leaves of a block: all but its tag, in any letter case. -/
def untagged (between : Text) : Text := (Text.afterFolded? tag between).getD between

theorem untagged_suffix (between : Text) : untagged between <:+ between := by
  unfold untagged
  cases hFound : Text.afterFolded? tag between with
  | none => exact List.suffix_rfl
  | some rest => exact Text.suffix_of_afterFolded?_eq_some hFound

/-- A tag ends before anything that is no letter. -/
theorem untagged_append_cons {c : Char} (hc : tag.any (isLetterFolded · c) = false)
    (t more : Text) : untagged (t ++ c :: more) = untagged t ++ c :: more := by
  have hLetter : ∀ l ∈ tag, isLetterFolded l c = false := by simpa using hc
  rw [untagged, untagged, Text.afterFolded?_append_cons hLetter]
  cases Text.afterFolded? tag t <;> rfl

/-- A song has its code in the block that stands between the first two fences. -/
theorem block?_of_pairs {t between : Text} {more : List Text}
    (h : Fence.pairs t = between :: more) : block? t = some (untagged between) := by
  obtain ⟨before, rest, after, hOpen, hClose⟩ := Fence.exists_cuts_of_pairs_eq_cons h
  have hRest : untagged rest = untagged between ++ Fence.mark ++ after := by
    rw [Text.eq_append_of_cut?_eq_some hClose, List.append_assoc, List.append_assoc]
    exact untagged_append_cons (by decide) between _
  have hNone : ¬Fence.mark <:+: untagged between ++ Fence.mark.dropLast := by
    have hWhole := Text.not_infix_of_cut?_eq_some Fence.mark_ne_nil hClose
    obtain ⟨spelled, hSpelled⟩ := untagged_suffix between
    rw [← hSpelled, List.append_assoc] at hWhole
    exact fun hInfix => hWhole (hInfix.trans (List.suffix_append ..).isInfix)
  rw [block?, hOpen, Option.bind_some]
  change (Text.cut? Fence.mark (untagged rest)).map Prod.fst = some (untagged between)
  rw [hRest, Text.cut?_append Fence.mark_ne_nil hNone]
  rfl

/-- A text with the given heading, and with the given code in its block. -/
def layout (heading code : Text) : Text :=
  heading ++ Text.lineFeed ::
    (Fence.mark ++ (tag ++ Text.lineFeed :: (code ++ Text.lineFeed ::
      (Fence.mark ++ [Text.lineFeed]))))

/-- A block is found between the first two fences, without its tag. -/
theorem block?_layout {heading code : Text} (hHeading : ¬Fence.mark <:+: heading)
    (hCode : ¬Fence.mark <:+: code) :
    block? (layout heading code) = some (Text.lineFeed :: code ++ [Text.lineFeed]) := by
  have hInside : ¬Fence.mark <:+: Text.lineFeed :: code := by
    rw [← List.nil_append (_ :: _), Text.infix_append_cons_iff (by decide), List.infix_nil]
    exact not_or.2 ⟨Fence.mark_ne_nil, hCode⟩
  have hTag (rest : Text) : Text.afterFolded? tag (tag ++ rest) = some rest := rfl
  rw [block?, layout, Text.cut?_append_sep (by decide) hHeading, Option.bind_some]
  simp only [hTag, Option.getD_some]
  rw [← List.cons_append, Text.cut?_append_sep (by decide) hInside, Option.map_some]

/-- A fence before the block of the code hides that block, whatever the code is. -/
theorem exists_block?_layout {heading : Text} (hMark : Fence.mark <:+: heading) :
    ∃ block, ∀ code, block? (layout heading code) = some block := by
  obtain ⟨⟨before, rest⟩, hOpen⟩ : ∃ cut, Text.cut? Fence.mark heading = some cut := by
    rw [← Option.ne_none_iff_exists', Ne, Text.cut?_eq_none_iff]
    exact not_not.2 hMark
  -- the block ends in the heading, or else at the fence that was to open the block of the code
  obtain ⟨block, hBlock⟩ : ∃ block, ∀ more, (Text.cut? Fence.mark
      (untagged rest ++ Text.lineFeed :: (Fence.mark ++ more))).map Prod.fst = some block := by
    cases hClose : Text.cut? Fence.mark (untagged rest) with
    | some closed =>
        refine ⟨closed.1, fun more => ?_⟩
        rw [Text.cut?_append_of_eq_some Fence.mark_ne_nil hClose]
        rfl
    | none =>
        have hNone := (Text.cut?_eq_none_iff _).1 hClose
        refine ⟨untagged rest ++ [Text.lineFeed], fun more => ?_⟩
        rw [Text.cut?_append_sep (by decide) hNone]
        rfl
  refine ⟨block, fun code => ?_⟩
  rw [block?, layout, Text.cut?_append_of_eq_some Fence.mark_ne_nil hOpen, Option.bind_some,
    ← hBlock]
  change (Text.cut? Fence.mark (untagged (rest ++ Text.lineFeed :: _))).map Prod.fst = _
  rw [untagged_append_cons (by decide)]

/-- With its line ends unified, a sheet is laid out as before. -/
theorem unifyLineEnds_layout {heading code : Text} (hHeading : heading.getLast? ≠ some '\r')
    (hCode : code.getLast? ≠ some '\r') :
    (layout heading code).unifyLineEnds = layout heading.unifyLineEnds code.unifyLineEnds := by
  have hOpening (t : Text) :
      Text.unifyLineEnds (Text.lineFeed :: (Fence.mark ++ (tag ++ Text.lineFeed :: t))) =
        Text.lineFeed :: (Fence.mark ++ (tag ++ Text.lineFeed :: t.unifyLineEnds)) := rfl
  have hClosing : Text.unifyLineEnds (Text.lineFeed :: (Fence.mark ++ [Text.lineFeed])) =
      Text.lineFeed :: (Fence.mark ++ [Text.lineFeed]) := rfl
  rw [layout, Text.unifyLineEnds_append fun h => absurd h hHeading, hOpening,
    Text.unifyLineEnds_append fun h => absurd h hCode, hClosing]
  rfl

end SongSheet

end Composer
