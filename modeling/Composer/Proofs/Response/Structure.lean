import Composer.Proofs.Response.Artifact
import Composer.Proofs.Response.Escapes

/-!
The structure of finished code. It is checked before escapes are undone, and undoing them keeps
voices, brackets and the line that sets the tempo. It may turn a comment into several lines, though,
and then code comes to stand before that line.

A line feed ends every run of backslashes, so escapes are undone line by line
(`Escapes.undo_append_lineFeed`), and what each line becomes can be looked at alone.
-/

namespace Composer

namespace Escapes

theorem dropMarks_cons {c : Char} (hc : c ≠ '\\') (t : Text) :
    dropMarks (c :: t) = c :: dropMarks t := by
  cases t with
  | nil => rfl
  | cons d t => simp [dropMarks]

theorem expandControls_cons {c : Char} (hc : c ≠ '\\') (t : Text) :
    expandControls (c :: t) = c :: expandControls t := by
  cases t with
  | nil => rfl
  | cons d t => simp [expandControls]

theorem dropMarks_append_lineFeed (s t : Text) :
    dropMarks (s ++ '\n' :: t) = dropMarks s ++ '\n' :: dropMarks t := by
  have hFeed : dropMarks ('\n' :: t) = '\n' :: dropMarks t := dropMarks_cons (by decide) t
  fun_induction dropMarks s with
  | case1 => exact hFeed
  | case2 c =>
      by_cases hc : c = '\\'
      · subst hc
        simp [dropMarks, hFeed, isMark]
      · simpa [hFeed] using dropMarks_cons hc ('\n' :: t)
  | case3 c s hMark ih => simp [dropMarks, hMark, ih]
  | case4 c s hMark ih =>
      rw [List.cons_append] at ih
      simp [dropMarks, hMark, ih]
  | case5 c d s hNot ih =>
      rw [List.cons_append] at ih
      simp [dropMarks, ih]

theorem expandControls_append_lineFeed (s t : Text) :
    expandControls (s ++ '\n' :: t) = expandControls s ++ '\n' :: expandControls t := by
  have hFeed : expandControls ('\n' :: t) = '\n' :: expandControls t :=
    expandControls_cons (by decide) t
  fun_induction expandControls s with
  | case1 => exact hFeed
  | case2 c =>
      by_cases hc : c = '\\'
      · subst hc
        simp [expandControls, hFeed, control?]
      · simpa [hFeed] using expandControls_cons hc ('\n' :: t)
  | case3 c s e hControl ih => simp [expandControls, hControl, ih]
  | case4 c s hControl ih =>
      rw [List.cons_append] at ih
      simp [expandControls, hControl, ih]
  | case5 c d s hNot ih =>
      rw [List.cons_append] at ih
      simp [expandControls, ih]

theorem round_append_lineFeed (s t : Text) :
    round (s ++ '\n' :: t) = round s ++ '\n' :: round t := by
  rw [round, dropMarks_append_lineFeed, expandControls_append_lineFeed]
  rfl

theorem length_round_le (t : Text) : (round t).length ≤ t.length :=
  Nat.le_trans (length_expandControls_le _) (length_dropMarks_le t)

theorem undo_round (t : Text) : undo (round t) = undo t := by
  by_cases hSame : round t = t
  · rw [hSame]
  · rw [undo.eq_def t, if_neg hSame]

/-- A beginning without backslashes is still there after escapes are undone. -/
theorem exists_undo_append {lead : Text} (hLead : '\\' ∉ lead) (t : Text) :
    ∃ rest, undo (lead ++ t) = lead ++ rest := by
  refine undo_of_rewrites (P := fun u => ∃ rest, u = lead ++ rest) ?_ ⟨t, rfl⟩
  rintro u v hRewrites ⟨rest, rfl⟩
  obtain ⟨rest', rfl, -⟩ := hRewrites.of_append hLead
  exact ⟨rest', rfl⟩

/-- A line feed ends every run of backslashes, so escapes are undone on its two sides apart. -/
theorem undo_append_lineFeed (s t : Text) : undo (s ++ '\n' :: t) = undo s ++ '\n' :: undo t := by
  generalize hText : s ++ '\n' :: t = text
  fun_induction undo text generalizing s t with
  | case1 text hSame =>
      subst hText
      rw [round_append_lineFeed] at hSame
      have hLength := congrArg List.length hSame
      have hs := length_round_le s
      have ht := length_round_le t
      simp only [List.length_append, List.length_cons] at hLength
      obtain ⟨hRound, hRest⟩ := List.append_inj hSame (by omega)
      rw [undo, if_pos hRound, undo, if_pos (List.cons.inj hRest).2]
  | case2 text hOther ih =>
      subst hText
      rw [ih (round s) (round t) (round_append_lineFeed s t).symm, undo_round, undo_round]

end Escapes

namespace Measure

theorem codeLines_append_lineFeed (s t : Text) :
    codeLines (s ++ '\n' :: t) = codeLines s ++ codeLines t := by
  rw [codeLines, Text.lines_append_lineFeed, List.map_append, List.filter_append]
  rfl

/-- The code lines after escapes are undone are those that each line then has. -/
theorem codeLines_undo (code : Text) :
    codeLines (Escapes.undo code) =
      code.lines.flatMap fun line => codeLines (Escapes.undo line) := by
  induction hLength : code.length using Nat.strongRecOn generalizing code with
  | _ n ih =>
      by_cases hFeed : '\n' ∈ code
      · obtain ⟨line, rest, rfl, hLine⟩ := List.eq_append_cons_of_mem hFeed
        have hRest := ih rest.length (by simp at hLength; omega) rest rfl
        rw [Escapes.undo_append_lineFeed, codeLines_append_lineFeed, hRest,
          Text.lines_append_cons hLine]
        rfl
      · rw [Text.lines_eq_singleton hFeed, List.flatMap_singleton]

theorem contains_voiceMarker_undo (code : Text) :
    (Escapes.undo code).contains voiceMarker = code.contains voiceMarker := by
  have hCounted : ∀ t : Text, t.contains voiceMarker ↔ 0 < voices t :=
    Text.anywhere_iff_countWhere_pos rfl
  rw [Bool.eq_iff_iff, hCounted, hCounted, Escapes.voices_undo]

/-- The lines before the first code line. -/
def leadingLines (code : Text) : List Text :=
  code.lines.takeWhile fun line => !isCodeLine line.strip

/-- The code lines that undoing escapes brings forth before the first code line. -/
def hiddenLines (code : Text) : List Text :=
  (leadingLines code).flatMap fun line => codeLines (Escapes.undo line)

end Measure


/-- The spellings with which a line sets the tempo. -/
def tempoLeads : List Text := ["setcpm(", "setcpm ("]

theorem setsTempoFirst_iff (line : Text) :
    setsTempoFirst line ↔ ∃ lead ∈ tempoLeads, ∃ rest, line = lead ++ rest := by
  simp [setsTempoFirst, tempoLeads, Text.startsWith_iff]

section
variable {indent lead : Text}

theorem strip_indent_append (hIndent : ∀ c ∈ indent, isBlank c) (hLead : lead ∈ tempoLeads)
    (t : Text) : Text.strip (indent ++ lead ++ t) = lead ++ Text.trimEndWhere isBlank t := by
  have hLast : ∀ c ∈ lead.getLast?, isBlank c = false := by
    simp only [tempoLeads, List.mem_cons, List.not_mem_nil, or_false] at hLead
    rcases hLead with rfl | rfl <;> exact fun c hc => Option.some.inj hc ▸ by decide
  have hFirst : ∀ c ∈ (lead ++ t).head?, isBlank c = false := by
    simp only [tempoLeads, List.mem_cons, List.not_mem_nil, or_false] at hLead
    rcases hLead with rfl | rfl <;> exact fun c hc => Option.some.inj hc ▸ by decide
  rw [Text.strip, Text.trimWhere, List.append_assoc, List.dropWhile_append_of_pos hIndent,
    Text.dropWhile_eq_self hFirst]
  exact Text.trimEndWhere_append hLast

/-- A line that sets the tempo has nothing but white space before that. -/
theorem exists_eq_indent_append {line : Text} (hTempo : setsTempoFirst line.strip) :
    ∃ indent, ∃ lead ∈ tempoLeads, ∃ rest, (∀ c ∈ indent, isBlank c) ∧
      line = indent ++ lead ++ rest := by
  obtain ⟨lead, hLead, rest, hStrip⟩ := (setsTempoFirst_iff _).1 hTempo
  obtain ⟨trailing, hTrailing, -⟩ :=
    Text.exists_eq_trimEndWhere_append (p := isBlank) line.skipBlanks
  have hSkipped : line.skipBlanks = lead ++ (rest ++ trailing) := by
    rw [← List.append_assoc, ← hStrip]
    exact hTrailing
  refine ⟨line.takeWhile isBlank, lead, hLead, rest ++ trailing,
    List.all_eq_true.1 List.all_takeWhile, ?_⟩
  rw [List.append_assoc, ← hSkipped]
  exact List.takeWhile_append_dropWhile.symm

end

/-- The line that sets the tempo goes on doing so: the first code line of what it becomes does. -/
theorem exists_codeLines_undo {line : Text} (hFeed : '\n' ∉ line)
    (hTempo : setsTempoFirst line.strip) :
    ∃ first rest, Measure.codeLines (Escapes.undo line) = first :: rest ∧
      setsTempoFirst first := by
  obtain ⟨indent, lead, hLead, rest, hIndent, rfl⟩ := exists_eq_indent_append hTempo
  have hPlain : '\\' ∉ indent ++ lead := by
    have hNone : ∀ lead ∈ tempoLeads, '\\' ∉ lead := by decide
    rw [List.mem_append]
    exact not_or.2 ⟨fun h => absurd (hIndent _ h) (by decide), hNone lead hLead⟩
  have hOpen : ∀ c ∈ indent ++ lead, (c == Text.lineFeed) = false := by
    intro c hc
    rw [beq_eq_false_iff_ne]
    rintro rfl
    exact hFeed (List.mem_append_left _ hc)
  obtain ⟨after, hUndo⟩ := Escapes.exists_undo_append hPlain rest
  obtain ⟨piece, pieces, hPieces⟩ :=
    List.exists_cons_of_ne_nil (Text.splitWhere_ne_nil (p := (· == Text.lineFeed)) after)
  have hCode : Measure.isCodeLine (lead ++ Text.trimEndWhere isBlank piece) := by
    simp only [tempoLeads, List.mem_cons, List.not_mem_nil, or_false] at hLead
    rcases hLead with rfl | rfl <;> rfl
  refine ⟨lead ++ Text.trimEndWhere isBlank piece,
    (pieces.map Text.strip).filter Measure.isCodeLine,
    ?_, (setsTempoFirst_iff _).2 ⟨lead, hLead, _, rfl⟩⟩
  rw [hUndo, Measure.codeLines, Text.lines, Text.splitWhere_append_of_neg hOpen hPieces,
    List.map_cons, strip_indent_append hIndent hLead, List.filter_cons_of_pos hCode]

theorem Measure.exists_lines_eq {code first : Text} {rest : List Text}
    (hLines : codeLines code = first :: rest) :
    ∃ line more, code.lines = leadingLines code ++ line :: more ∧ line.strip = first := by
  unfold codeLines leadingLines at *
  generalize code.lines = lines at *
  induction lines with
  | nil => exact absurd hLines (by simp)
  | cons line lines ih =>
      cases hCode : isCodeLine line.strip with
      | true =>
          rw [List.map_cons, List.filter_cons_of_pos hCode] at hLines
          refine ⟨line, lines, ?_, (List.cons.inj hLines).1⟩
          rw [List.takeWhile_cons_of_neg (by simp [hCode]), List.nil_append]
      | false =>
          rw [List.map_cons, List.filter_cons_of_neg (by simp [hCode])] at hLines
          obtain ⟨next, more, hRest, hFirst⟩ := ih hLines
          refine ⟨next, more, ?_, hFirst⟩
          rw [List.takeWhile_cons_of_pos (by simp [hCode]), List.cons_append, ← hRest]

/-- With a voice and balanced brackets, all depends on the first code line. -/
theorem structureFault?_of_codeLines {code line : Text} {rest : List Text}
    (hLines : Measure.codeLines code = line :: rest) (hVoice : code.contains Measure.voiceMarker)
    (hBalanced : Measure.unbalanced code = []) :
    structureFault? code = if setsTempoFirst line then none else some (.noLeadingTempo line) := by
  unfold structureFault?
  rw [hLines]
  cases hTempo : setsTempoFirst line with
  | true => simp [hTempo, hVoice, hBalanced]
  | false => simp [hTempo]

theorem structureFault?_eq_none_iff (code : Text) :
    structureFault? code = none ↔ ∃ line rest, Measure.codeLines code = line :: rest ∧
      setsTempoFirst line ∧ code.contains Measure.voiceMarker ∧ Measure.unbalanced code = [] := by
  constructor
  · intro h
    unfold structureFault? at h
    split at h
    · exact absurd h (by simp)
    · next line rest hLines =>
        split at h
        · exact absurd h (by simp)
        · next hTempo =>
            split at h
            · exact absurd h (by simp)
            · next hVoice =>
                refine ⟨line, rest, hLines, by simpa using hTempo, by simpa using hVoice, ?_⟩
                simpa using h
  · rintro ⟨line, rest, hLines, hTempo, hVoice, hBalanced⟩
    rw [structureFault?_of_codeLines hLines hVoice hBalanced, if_pos hTempo]

/-- Of code without a fault of structure, undoing escapes can only make code whose first code line
is another one, brought forth by a comment. -/
theorem structureFault?_undo {code : Text} (hSound : structureFault? code = none) :
    structureFault? (Escapes.undo code) =
      (Measure.hiddenLines code).head?.bind fun line =>
        if setsTempoFirst line then none else some (.noLeadingTempo line) := by
  obtain ⟨first, rest, hLines, hTempo, hVoice, hBalanced⟩ :=
    (structureFault?_eq_none_iff code).1 hSound
  obtain ⟨line, more, hAll, rfl⟩ := Measure.exists_lines_eq hLines
  have hFeed : '\n' ∉ line := by
    have hMem : line ∈ code.lines := hAll ▸ List.mem_append_right _ List.mem_cons_self
    intro h
    exact absurd (Text.eq_false_of_mem_splitWhere hMem _ h) (by decide)
  obtain ⟨first', rest', hTempoLines, hSets⟩ := exists_codeLines_undo hFeed hTempo
  have hUndone : Measure.codeLines (Escapes.undo code) =
      Measure.hiddenLines code ++ first' :: (rest' ++ more.flatMap fun line =>
        Measure.codeLines (Escapes.undo line)) := by
    rw [Measure.codeLines_undo, hAll, List.flatMap_append, List.flatMap_cons, hTempoLines]
    rfl
  rw [← Measure.contains_voiceMarker_undo] at hVoice
  rw [← Escapes.unbalanced_undo] at hBalanced
  cases hHidden : Measure.hiddenLines code with
  | nil =>
      rw [hHidden] at hUndone
      rw [structureFault?_of_codeLines hUndone hVoice hBalanced, if_pos hSets]
      rfl
  | cons hidden others =>
      rw [hHidden] at hUndone
      rw [structureFault?_of_codeLines hUndone hVoice hBalanced]
      rfl

/-- Nothing is hidden in lines without backslashes. -/
theorem Measure.hiddenLines_eq_nil {code : Text} (h : ∀ line ∈ leadingLines code, '\\' ∉ line) :
    hiddenLines code = [] := by
  refine List.flatMap_eq_nil_iff.2 fun line hLine => ?_
  have hMem : line ∈ code.lines := (List.takeWhile_sublist _).mem hLine
  have hFeed : Text.lineFeed ∉ line := by
    intro hFeed
    exact absurd (Text.eq_false_of_mem_splitWhere hMem _ hFeed) (by decide)
  have hCode : isCodeLine line.strip = false := by
    simpa using List.all_eq_true.1 List.all_takeWhile line hLine
  rw [Escapes.undo_eq_self (h line hLine), codeLines, Text.lines_eq_singleton hFeed]
  simp [hCode]

theorem Extraction.code?_parse_eq_some_iff (response code : Text) :
    (parse response).code? = some code ↔ Response.finishedArtifact response = .ok code := by
  unfold parse ofAttempt
  cases Response.finishedArtifact response with
  | error fault => simp [code?]
  | ok found => simp [code?]

/-- Parsed code has no fault of structure exactly when no other code line comes to stand before the
one that sets the tempo, and otherwise this is its only fault. Where the lines before that one have
no backslashes, nothing can come to stand there. -/
theorem Extraction.parsed_structure_iff {response code : Text}
    (hParsed : (parse response).code? = some code) :
    ∃ found, Response.artifact response = .ok found ∧ code = Escapes.undo found ∧
      (structureFault? code = none ↔
        ∀ line ∈ (Measure.hiddenLines found).head?, setsTempoFirst line) ∧
      (∀ fault, structureFault? code = some fault →
        ∃ line ∈ (Measure.hiddenLines found).head?, fault = .noLeadingTempo line) ∧
      ((∀ line ∈ Measure.leadingLines found, '\\' ∉ line) → structureFault? code = none) := by
  have hFinished := (code?_parse_eq_some_iff response code).1 hParsed
  obtain ⟨found, hFound, hSound, rfl⟩ :=
    (Response.finishedArtifact_eq_ok_iff response code).1 hFinished
  refine ⟨found, hFound, rfl, ?_⟩
  rw [structureFault?_undo hSound]
  refine ⟨?_, ?_, ?_⟩
  · cases (Measure.hiddenLines found).head? with
    | none => simp
    | some line => simp
  · intro fault hFault
    obtain ⟨line, hLine, hOther⟩ := Option.bind_eq_some_iff.1 hFault
    refine ⟨line, hLine, ?_⟩
    split at hOther
    · exact absurd hOther (by simp)
    · exact (Option.some.inj hOther).symm
  · intro hPlain
    rw [Measure.hiddenLines_eq_nil hPlain]
    rfl

namespace Response

/-- A response whose escapes stand behind the line that sets the tempo. -/
def escapedResponse : Text := "```\nsetcpm(90)\\n$: s(\\\"bd\\\")\n```"

def unescapedCode : Text := "setcpm(90)\n$: s(\"bd\")"

theorem parsed_structure_iff_of_escaped :
    (Extraction.parse escapedResponse).code? = some unescapedCode ∧
    ∃ found, artifact escapedResponse = .ok found ∧ unescapedCode = Escapes.undo found ∧
      (structureFault? unescapedCode = none ↔
        ∀ line ∈ (Measure.hiddenLines found).head?, setsTempoFirst line) ∧
      (∀ fault, structureFault? unescapedCode = some fault →
        ∃ line ∈ (Measure.hiddenLines found).head?, fault = .noLeadingTempo line) ∧
      ((∀ line ∈ Measure.leadingLines found, '\\' ∉ line) →
        structureFault? unescapedCode = none) := by
  have hParsed : (Extraction.parse escapedResponse).code? = some unescapedCode := by
    decide +kernel
  exact ⟨hParsed, Extraction.parsed_structure_iff hParsed⟩

/-- A response with an escaped line end in a comment, in front of code that sets the tempo first. -/
def commentedResponse : Text :=
  "```javascript\n// warm intro\\nhush()\nsetcpm(90)\n$: s(\"bd\")\n```"

def splitCommentCode : Text := "// warm intro\nhush()\nsetcpm(90)\n$: s(\"bd\")"

/-- The second half of the comment comes to stand before the line that sets the tempo. -/
theorem parsed_code_starts_elsewhere :
    (Extraction.parse commentedResponse).code? = some splitCommentCode ∧
    structureFault? splitCommentCode = some (.noLeadingTempo "hush()") := by
  decide +kernel

end Response

end Composer
