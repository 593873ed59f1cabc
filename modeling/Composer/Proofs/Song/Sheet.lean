import Composer.Proofs.Song.Blocks
import Composer.Song.Folder

/-!
Writing and reading song sheets. A sheet whose fields each fit on one line, and that holds no fence,
is read back as it was written, its code without the white space around it. The header lines are
found first, so nothing that they or the code say is taken for another header line; only a code that
begins with a prompt line of its own is, when the sheet has no prompt. A title may have several
lines; then those below its first are looked at for the other fields before the lines of these are.
-/

namespace Composer

theorem Text.unbroken_of_any {t : Text} (h : t.any isLineBoundary = false) :
    ∀ c ∈ t, isLineBoundary c = false := by
  simpa using h

/-- A text that is read back from a line of its own: it is not empty, has no white space at its ends
and holds no line boundary. -/
structure Text.FitsLine (t : Text) : Prop where
  filled : t ≠ []
  stripped : t.strip = t
  unbroken : ∀ c ∈ t, isLineBoundary c = false

theorem Song.fitsLine_of_onOneLine {given : Option Text} {p : Text}
    (h : Song.onOneLine given = some p) : p.FitsLine := by
  obtain ⟨t, -, hWords⟩ := Option.bind_eq_some_iff.1 h
  have hFilled : Text.joinWith [' '] t.words ≠ [] := by
    rintro hEmpty
    simp [SongSheet.nonEmpty?, hEmpty] at hWords
  have hSame : Text.joinWith [' '] t.words = p := by
    simpa [SongSheet.nonEmpty?, hFilled] using hWords
  subst hSame
  have hInWord {c : Char} (h : ∃ word ∈ t.words, c ∈ word) : isBlank c = false := by
    obtain ⟨word, hWord, hc⟩ := h
    exact Text.isBlank_eq_false_of_mem_words hWord c hc
  have hWordFilled := fun word (h : word ∈ t.words) => Text.ne_nil_of_mem_words h
  refine ⟨hFilled, Text.trimWhere_eq_self ?_ ?_, ?_⟩
  · exact fun c hc => hInWord (Text.head?_joinWith [' '] hWordFilled c hc)
  · exact fun c hc => hInWord (Text.getLast?_joinWith [' '] hWordFilled c hc)
  · intro c hc
    rcases Text.mem_joinWith hc with hSpace | hWord
    · rw [List.mem_singleton.1 hSpace]
      rfl
    · exact Text.isLineBoundary_eq_false (hInWord hWord)

namespace SongSheet

/-- A sheet that is read back: title, time and prompt fit on their lines, there is no fence in it
that is not its own, and without a prompt no prompt line stands where the header is looked for. -/
structure Legible (s : SongSheet) : Prop where
  title : s.title.FitsLine
  created : s.created.FitsLine
  prompt : ∀ p ∈ s.prompt, ∃ given, Song.onOneLine given = some p
  unfencedTitle : s.title.contains Fence.mark = false
  unfencedCreated : s.created.contains Fence.mark = false
  unfencedPrompt : ∀ p ∈ s.prompt, p.contains Fence.mark = false
  unfencedCode : s.code.contains Fence.mark = false
  noPromptLine : s.prompt = none →
    ∀ line ∈ s.code.strip.allLines.take 4, Text.afterFolded? promptStart line = none

/-- What every saved sheet is: its title is not empty and has no white space at its ends, and its
time and its prompt fit on their lines. The title may have several lines. -/
structure WellFormed (s : SongSheet) : Prop where
  titled : s.title ≠ []
  stripped : s.title.strip = s.title
  created : s.created.FitsLine
  prompt : ∀ p ∈ s.prompt, p.FitsLine

theorem Legible.wellFormed {s : SongSheet} (h : s.Legible) : s.WellFormed where
  titled := h.title.filled
  stripped := h.title.stripped
  created := h.created
  prompt p hp :=
    have ⟨_, hGiven⟩ := h.prompt p hp
    Song.fitsLine_of_onOneLine hGiven

/-! ### The block -/

/-- The lines of a sheet between its title and its block. -/
def fieldLines (s : SongSheet) : List Text :=
  (createdStart ++ ' ' :: s.created) :: promptLines s.prompt

/-- The text of a sheet before its block. -/
def heading (s : SongSheet) : Text :=
  Text.unlines ((titleStart ++ s.title) :: s.fieldLines ++ [[]])

theorem length_promptLines_le (prompt : Option Text) : (promptLines prompt).length ≤ 1 := by
  fun_cases promptLines prompt <;> simp

theorem write_eq (s : SongSheet) :
    s.write = Text.unlines ((titleStart ++ s.title) :: (s.fieldLines ++ [[], Fence.mark ++ tag]) ++
      [s.code.strip, Fence.mark, []]) := by
  simp [write, fieldLines]

theorem write_eq_layout (s : SongSheet) : s.write = layout s.heading s.code.strip := by
  have hLines : s.write = Text.unlines (((titleStart ++ s.title) :: s.fieldLines ++ [[]]) ++
      [Fence.mark ++ tag, s.code.strip, Fence.mark, []]) := by
    simp [write, fieldLines]
  rw [hLines, Text.unlines_append (by simp) (by simp)]
  simp [heading, layout, Text.unlines, Text.joinWith]

theorem exists_heading_eq (s : SongSheet) :
    ∃ rest, s.heading = titleStart ++ (rest ++ [Text.lineFeed]) := by
  have hEnd : s.heading =
      Text.unlines ((titleStart ++ s.title) :: s.fieldLines) ++ [Text.lineFeed] :=
    Text.unlines_append (List.cons_ne_nil _ _) (List.cons_ne_nil _ _)
  have hStart : Text.unlines ((titleStart ++ s.title) :: s.fieldLines) =
      titleStart ++ (s.title ++ Text.lineFeed :: Text.unlines s.fieldLines) := by
    rw [fieldLines, Text.unlines_cons_cons, List.append_assoc]
  refine ⟨s.title ++ Text.lineFeed :: Text.unlines s.fieldLines, ?_⟩
  rw [hEnd, hStart, List.append_assoc]

/-- The text of a song file as it is read. -/
theorem unifyLineEnds_write (s : SongSheet) :
    s.write.unifyLineEnds = layout s.heading.unifyLineEnds s.code.strip.unifyLineEnds := by
  obtain ⟨rest, hHeading⟩ := s.exists_heading_eq
  rw [write_eq_layout]
  refine unifyLineEnds_layout ?_ fun hLast => ?_
  · rw [hHeading, ← List.append_assoc, List.getLast?_concat]
    decide
  · exact absurd (Text.getLast?_strip s.code '\r' hLast) (by decide)

theorem infix_promptLines_iff (prompt : Option Text) :
    (∃ line ∈ promptLines prompt, Fence.mark <:+: line) ↔ ∃ p ∈ prompt, Fence.mark <:+: p := by
  have hSpace : ' ' ∉ Fence.mark := by decide
  have hStart : ¬Fence.mark <:+: promptStart :=
    Text.not_infix_of_contains_eq_false (by decide)
  cases prompt with
  | none => simp [promptLines]
  | some p =>
      cases p with
      | nil => simp [promptLines, Fence.mark_ne_nil]
      | cons c t => simp [promptLines, Text.infix_append_cons_iff hSpace, hStart]

/-- A fence in a heading stands in one of the fields. -/
theorem infix_heading_iff (s : SongSheet) :
    Fence.mark <:+: s.heading ↔
      Fence.mark <:+: s.title ∨ Fence.mark <:+: s.created ∨ ∃ p ∈ s.prompt, Fence.mark <:+: p := by
  have hClear : ∀ start ∈ [['#'], createdStart], ¬Fence.mark <:+: start := by
    simp only [← Text.contains_iff_infix]
    decide
  have hTitle : Fence.mark <:+: titleStart ++ s.title ↔ Fence.mark <:+: s.title := by
    have hLine : titleStart ++ s.title = ['#'] ++ ' ' :: s.title := rfl
    rw [hLine, Text.infix_append_cons_iff (by decide)]
    exact or_iff_right (hClear _ List.mem_cons_self)
  have hCreated : Fence.mark <:+: createdStart ++ ' ' :: s.created ↔ Fence.mark <:+: s.created := by
    rw [Text.infix_append_cons_iff (by decide)]
    exact or_iff_right (hClear createdStart (by simp))
  rw [heading, Text.infix_unlines_iff (by decide) Fence.mark_ne_nil, ← infix_promptLines_iff,
    ← hTitle, ← hCreated]
  simp [fieldLines, or_and_right, exists_or, Fence.mark_ne_nil]

/-- The first block of a written sheet is its code, on lines of its own. -/
theorem Legible.block?_write {s : SongSheet} (h : s.Legible) :
    block? s.write = some (Text.lineFeed :: s.code.strip ++ [Text.lineFeed]) := by
  rw [write_eq_layout]
  refine block?_layout ?_ ?_
  · rw [infix_heading_iff]
    rintro (hTitle | hCreated | ⟨p, hp, hPrompt⟩)
    · exact Text.not_infix_of_contains_eq_false h.unfencedTitle hTitle
    · exact Text.not_infix_of_contains_eq_false h.unfencedCreated hCreated
    · exact Text.not_infix_of_contains_eq_false (h.unfencedPrompt p hp) hPrompt
  · exact fun hMark => Text.not_infix_of_contains_eq_false h.unfencedCode
      (hMark.trans (Text.strip_infix s.code))

/-! ### The header -/

/-- The lines of a code in a block and of the closing fence; a code that is empty without its white
space has an empty line. -/
theorem allLines_block (code : Text) :
    ∃ codeLines, Text.allLines (Text.unlines [code.strip, Fence.mark, []]) =
        codeLines ++ [Fence.mark] ∧
      (codeLines = code.strip.allLines ∨ codeLines = [[]]) := by
  have hLines : Text.unlines [code.strip, Fence.mark, []] =
      code.strip ++ Text.lineFeed :: (Fence.mark ++ [Text.lineFeed]) := by
    simp [Text.unlines, Text.joinWith]
  have hMark : (Fence.mark ++ [Text.lineFeed]).allLines = [Fence.mark] := by decide
  rw [hLines]
  by_cases hEmpty : code.strip = []
  · refine ⟨[[]], ?_, .inr rfl⟩
    rw [hEmpty, Text.allLines_append_cons (by simp), hMark]
    rfl
  · refine ⟨code.strip.allLines, ?_, .inl rfl⟩
    have hLast := fun c hc => Text.isLineBoundary_eq_false (Text.getLast?_strip code c hc)
    rw [Text.allLines_append_lineFeed hEmpty hLast, hMark]

namespace WellFormed
variable {s : SongSheet}

theorem unbroken_fieldLines (h : s.WellFormed) :
    ∀ line ∈ s.fieldLines, ∀ c ∈ line, isLineBoundary c = false := by
  have hLine {start field : Text} (hStart : start.any isLineBoundary = false)
      (hField : field.FitsLine) : ∀ c ∈ start ++ ' ' :: field, isLineBoundary c = false := by
    rw [List.forall_mem_append, List.forall_mem_cons]
    exact ⟨Text.unbroken_of_any hStart, rfl, hField.unbroken⟩
  rw [fieldLines, List.forall_mem_cons]
  refine ⟨hLine (by decide) h.created, fun line hPrompt => ?_⟩
  cases hSome : s.prompt with
  | none => simp [hSome, promptLines] at hPrompt
  | some p =>
      have hFits := h.prompt p hSome
      obtain ⟨c, t, rfl⟩ := List.exists_cons_of_ne_nil hFits.filled
      rw [hSome, promptLines, List.mem_singleton] at hPrompt
      exact hPrompt ▸ hLine (by decide) hFits

/-- The title begins with something that is no white space, so its first line is no blank one. -/
theorem exists_allLines_title (h : s.WellFormed) :
    ∃ first rest, s.title.allLines = first :: rest ∧ first.strip ≠ [] := by
  have hHead := Text.head?_strip s.title
  rw [h.stripped] at hHead
  obtain ⟨c, t, hTitle⟩ := List.exists_cons_of_ne_nil h.titled
  have hc : isBlank c = false := hHead c (by rw [hTitle]; rfl)
  obtain ⟨line, rest, hLines⟩ :=
    Text.exists_allLines_cons (Text.isLineBoundary_eq_false hc) t
  refine ⟨c :: line, rest, hTitle ▸ hLines, ?_⟩
  rw [Ne, Text.strip_eq_nil_iff, Text.isBlankText, List.all_cons, hc]
  exact Bool.false_ne_true

/-- The lines of a written sheet: those of its title, the first of them behind its start, those of
the other fields, and those of its block. -/
theorem allLines_write (h : s.WellFormed) {first : Text} {rest : List Text}
    (hTitle : s.title.allLines = first :: rest) :
    ∃ codeLines, (codeLines = s.code.strip.allLines ∨ codeLines = [[]]) ∧
      s.write.allLines = (titleStart ++ first) ::
        (rest ++ (s.fieldLines ++ ([[], Fence.mark ++ tag] ++ (codeLines ++ [Fence.mark])))) := by
  obtain ⟨codeLines, hBlock, hCode⟩ := allLines_block s.code
  refine ⟨codeLines, hCode, ?_⟩
  have hOpening : ∀ line ∈ [[], Fence.mark ++ tag], line.any isLineBoundary = false := by decide
  have hFields : ∀ line ∈ s.fieldLines ++ [[], Fence.mark ++ tag], ∀ c ∈ line,
      isLineBoundary c = false := by
    rw [List.forall_mem_append]
    exact ⟨h.unbroken_fieldLines, fun line hLine => Text.unbroken_of_any (hOpening line hLine)⟩
  have hLast : ∀ c ∈ (titleStart ++ s.title).getLast?, isLineBoundary c = false := by
    rw [List.getLast?_append, Option.or_of_isSome (List.getLast?_isSome.2 h.titled)]
    intro c hc
    exact Text.isLineBoundary_eq_false (Text.getLast?_strip s.title c (h.stripped.symm ▸ hc))
  have hHeading : (titleStart ++ s.title).allLines = (titleStart ++ first) :: rest := by
    rw [Text.allLines_append_of_unbroken (Text.unbroken_of_any (by decide)) h.titled, hTitle]
    rfl
  have hFirst : [titleStart ++ s.title] ≠ [] := List.cons_ne_nil _ _
  rw [write_eq, ← List.singleton_append, List.append_assoc, Text.unlines_append hFirst (by simp)]
  rw [Text.unlines, Text.joinWith, Text.allLines_append_lineFeed (by simp [titleStart]) hLast,
    Text.allLines_unlines_append hFields (by simp), hBlock, hHeading]
  simp

end WellFormed

/-- What a line says behind the beginning that it was looked for with, if it says anything. -/
def said? (start line : Text) : Option Text :=
  (Text.afterFolded? start line).bind fun rest => nonEmpty? rest.strip

theorem said?_eq_none {start line : Text} (h : Text.afterFolded? start line = none) :
    said? start line = none := by
  rw [said?, h]
  rfl

/-- No line is a line with the time and one with the prompt. -/
theorem said?_promptStart_of_created {line rest : Text}
    (h : Text.afterFolded? createdStart line = some rest) : said? promptStart line = none := by
  have hCreated : createdStart = 'c' :: "reated:".toList := rfl
  have hPrompt : promptStart = 'p' :: "rompt:".toList := rfl
  rw [hCreated] at h
  obtain ⟨c, spelled, rfl, hLetter⟩ := Text.exists_of_afterFolded?_eq_some h
  have hLower : c.toLower = 'c' := by simpa [isLetterFolded] using hLetter
  have hOther : isLetterFolded 'p' c = false := by simp [isLetterFolded, hLower]
  refine said?_eq_none ?_
  rw [hPrompt, Text.afterFolded?, if_neg (by simp [hOther])]

theorem said?_ne_some_nil (start line : Text) : said? start line ≠ some [] := by
  rw [said?]
  cases Text.afterFolded? start line with
  | none => simp
  | some rest => cases hRest : rest.strip <;> simp [nonEmpty?, hRest]

theorem getD_nonEmpty? (t : Text) : (nonEmpty? t).getD [] = t := by
  cases t <;> rfl

theorem nonEmpty?_getD {found : Option Text} (h : found ≠ some []) :
    nonEmpty? (found.getD []) = found := by
  cases found with
  | none => rfl
  | some t =>
      cases t with
      | nil => exact absurd rfl h
      | cons c t => rfl

/-- One line more behind a title: it says the time or the prompt, if they were not said before. -/
theorem Header.addLine_eq {h : Header} (hTitle : h.title ≠ []) (line : Text) :
    h.addLine line = ⟨h.title, ((nonEmpty? h.created).or (said? createdStart line)).getD [],
      h.prompt.or (said? promptStart line)⟩ := by
  obtain ⟨title, created, prompt⟩ := h
  have hTitled : title.isEmpty = false := by simpa using hTitle
  unfold addLine
  simp only [hTitled, Bool.false_eq_true, if_false]
  cases hCreated : if created.isEmpty then Text.afterFolded? createdStart line else none with
  | some rest =>
      obtain ⟨hEmpty, hAfter⟩ : created = [] ∧ Text.afterFolded? createdStart line = some rest := by
        simpa using hCreated
      have hSaid : said? createdStart line = nonEmpty? rest.strip := by
        rw [said?, hAfter]
        rfl
      rw [said?_promptStart_of_created hAfter, Option.or_none, hSaid, hEmpty]
      exact congrArg (Header.mk title · prompt) (getD_nonEmpty? rest.strip).symm
  | none =>
      have hKept : ((nonEmpty? created).or (said? createdStart line)).getD [] = created := by
        cases created with
        | nil =>
            have hAfter : Text.afterFolded? createdStart line = none := by simpa using hCreated
            rw [said?_eq_none hAfter]
            rfl
        | cons c t => rfl
      rw [hKept]
      cases prompt with
      | some p => rfl
      | none =>
          cases hAfter : Text.afterFolded? promptStart line with
          | none => simp [said?_eq_none hAfter]
          | some rest => simp [said?, hAfter]

/-- Behind a title, a header has what was said before, and else what the first line says that says
anything. -/
theorem Header.foldl_addLine {h : Header} (hTitle : h.title ≠ []) (lines : List Text) :
    lines.foldl addLine h = ⟨h.title,
      ((nonEmpty? h.created).or (lines.findSome? (said? createdStart))).getD [],
      h.prompt.or (lines.findSome? (said? promptStart))⟩ := by
  induction lines generalizing h with
  | nil => simp [getD_nonEmpty?]
  | cons line lines ih =>
      have hCreated : nonEmpty? (((nonEmpty? h.created).or (said? createdStart line)).getD []) =
          (nonEmpty? h.created).or (said? createdStart line) := by
        refine nonEmpty?_getD ?_
        cases h.created with
        | nil => exact said?_ne_some_nil createdStart line
        | cons c t => simp [nonEmpty?]
      have hFound (f : Text → Option Text) :
          (line :: lines).findSome? f = (f line).or (lines.findSome? f) := by
        rw [List.findSome?_cons]
        cases f line <;> rfl
      have hTitled : (h.addLine line).title ≠ [] := by rwa [addLine_eq hTitle]
      rw [List.foldl_cons, ih hTitled, addLine_eq hTitle, hCreated, hFound, hFound,
        Option.or_assoc, Option.or_assoc]

/-- A text that begins with the line of a title has the first line of the title, and of the seven
lines after that the first ones that say a time or a prompt. -/
theorem Header.ofText_of_heading {t first : Text} {lines : List Text}
    (hLines : t.allLines = (titleStart ++ first) :: lines) (hFirst : first.strip ≠ []) :
    Header.ofText t = ⟨first.strip, ((lines.take 7).findSome? (said? createdStart)).getD [],
      (lines.take 7).findSome? (said? promptStart)⟩ := by
  have hTitle : Header.addLine ⟨[], [], none⟩ (titleStart ++ first) = ⟨first.strip, [], none⟩ := rfl
  rw [Header.ofText, hLines, headerLimit, List.take_succ_cons, List.foldl_cons, hTitle,
    foldl_addLine hFirst]
  rfl

/-- A field line says its field. -/
theorem said?_line {start field : Text} (hField : field.FitsLine)
    (hStart : ∀ rest, Text.afterFolded? start (start ++ rest) = some rest) :
    said? start (start ++ ' ' :: field) = some field := by
  rw [said?, hStart, Option.bind_some, Text.strip_cons rfl, hField.stripped, nonEmpty?,
    if_neg (by simpa using hField.filled)]

namespace WellFormed
variable {s : SongSheet}

/-- The first of the field lines says the time. -/
theorem findSome?_created (h : s.WellFormed) (lines : List Text) :
    (s.fieldLines ++ lines).findSome? (said? createdStart) = some s.created := by
  rw [fieldLines, List.cons_append, List.findSome?_cons, said?_line h.created fun _ => rfl]

/-- The field lines say the prompt, if there is one, and nothing else of the kind. -/
theorem findSome?_prompt (h : s.WellFormed) (lines : List Text) :
    (s.fieldLines ++ lines).findSome? (said? promptStart) =
      s.prompt.or (lines.findSome? (said? promptStart)) := by
  have hCreated : said? promptStart (createdStart ++ ' ' :: s.created) = none :=
    said?_eq_none rfl
  rw [fieldLines, List.cons_append, List.findSome?_cons, hCreated, List.findSome?_append]
  cases hSome : s.prompt with
  | none => rfl
  | some p =>
      have hFits := h.prompt p hSome
      obtain ⟨c, t, rfl⟩ := List.exists_cons_of_ne_nil hFits.filled
      rw [promptLines, List.findSome?_cons, said?_line hFits fun _ => rfl]

end WellFormed

namespace Legible
variable {s : SongSheet}

/-- Within the limit of a header, no line of the block of a sheet without a prompt says one. -/
theorem not_said_in_block (h : s.Legible) (hNone : s.prompt = none) {codeLines : List Text}
    (hCode : codeLines = s.code.strip.allLines ∨ codeLines = [[]]) :
    (([[], Fence.mark ++ tag] ++ (codeLines ++ [Fence.mark])).take 6).findSome?
      (said? promptStart) = none := by
  rw [List.findSome?_eq_none_iff]
  intro line hLine
  rw [List.take_append, List.take_append] at hLine
  have hOpening : ∀ line ∈ [[], Fence.mark ++ tag], Text.afterFolded? promptStart line = none := by
    decide
  rcases List.mem_append.1 hLine with hLine | hRest
  · exact said?_eq_none (hOpening line (List.mem_of_mem_take hLine))
  · rcases List.mem_append.1 hRest with hLine | hMark
    · rcases hCode with rfl | rfl
      · exact said?_eq_none (h.noPromptLine hNone line hLine)
      · rw [List.mem_singleton.1 (List.mem_of_mem_take hLine)]
        rfl
    · rw [List.mem_singleton.1 (List.mem_of_mem_take hMark)]
      rfl

/-- The header of a written sheet is found on the lines that it was written to. -/
theorem header_write (h : s.Legible) :
    Header.ofText s.write = ⟨s.title, s.created, s.prompt⟩ := by
  have hTitle : s.title.allLines = [s.title] := Text.allLines_eq_singleton h.title.filled
    h.title.unbroken
  obtain ⟨codeLines, hCode, hLines⟩ := h.wellFormed.allLines_write hTitle
  have hFew : s.fieldLines.length ≤ 7 := by
    have hPrompt := length_promptLines_le s.prompt
    rw [fieldLines, List.length_cons]
    omega
  have hFilled : s.title.strip ≠ [] := h.title.stripped.symm ▸ h.title.filled
  rw [Header.ofText_of_heading hLines hFilled, List.nil_append, List.take_append,
    List.take_of_length_le hFew, h.wellFormed.findSome?_created, h.wellFormed.findSome?_prompt,
    h.title.stripped]
  cases hPrompt : s.prompt with
  | some p => rfl
  | none =>
      have hLength : 7 - s.fieldLines.length = 6 := by
        rw [fieldLines, hPrompt]
        rfl
      rw [hLength, h.not_said_in_block hPrompt hCode]
      rfl

end Legible

/-- A legible sheet is read back as it was written, its code without the white space around it. -/
theorem ofText_write (s : SongSheet) (h : s.Legible) :
    ofText s.write = { s with code := s.code.strip } := by
  rw [ofText, h.header_write, h.block?_write, Option.getD_some, Text.strip_append_singleton _ rfl,
    Text.strip_cons rfl, Text.strip_strip]

/-- A sheet whose fields look like other header lines, and whose code begins with a prompt line. -/
def deceptive : SongSheet :=
  ⟨"created: # ``", "prompt: 1", some "# created: `", "``\nprompt: ``\n"⟩

theorem ofText_write_deceptive :
    deceptive.Legible ∧ ofText deceptive.write = { deceptive with code := deceptive.code.strip } :=
  have hLegible : deceptive.Legible :=
    { title := ⟨by decide, by decide, Text.unbroken_of_any (by decide)⟩
      created := ⟨by decide, by decide, Text.unbroken_of_any (by decide)⟩
      prompt := fun p hp => ⟨p, by rw [← Option.mem_some.1 hp]; decide⟩
      unfencedTitle := by decide
      unfencedCreated := by decide
      unfencedPrompt := fun p hp => by rw [← Option.mem_some.1 hp]; decide
      unfencedCode := by decide
      noPromptLine := fun h => absurd h (by decide) }
  ⟨hLegible, ofText_write deceptive hLegible⟩

/-- Without a prompt, a prompt line at the beginning of the code is taken for one. -/
example : (ofText (write ⟨"a", "b", none, "prompt: c"⟩)).prompt = some "c".toList := by decide

end SongSheet

end Composer
