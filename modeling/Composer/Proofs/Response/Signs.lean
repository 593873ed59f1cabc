import Composer.Proofs.Response.Structure
import Composer.Proofs.Text.Letters

/-!
Signs of pattern code in a response. Each of them is spelled from a character that is no white space
to another, so white space around a response makes no difference to them. Code without a fault of
structure shows two of them, the tempo and a voice.
-/

namespace Composer

/-! ### White space around what is recognised -/

namespace Text

/-- A recogniser that finds nothing where white space begins, and finds the same whether white space
follows the text or not. -/
structure IgnoresBlanks (recognise : Text → Option Text) : Prop where
  first : ∀ c t, isBlank c → recognise (c :: t) = none
  last : ∀ c t, isBlank c → recognise (t ++ [c]) = (recognise t).map (· ++ [c])

section
variable {recognise : Text → Option Text} (h : IgnoresBlanks recognise)
include h

theorem IgnoresBlanks.anywhere_append_left {before : Text} (hBlank : ∀ c ∈ before, isBlank c)
    (t : Text) :
    anywhere (fun u => (recognise u).isSome) (before ++ t) =
      anywhere (fun u => (recognise u).isSome) t := by
  induction before with
  | nil => rfl
  | cons c before ih =>
      obtain ⟨hc, hRest⟩ := List.forall_mem_cons.1 hBlank
      rw [List.cons_append, anywhere, h.first c _ hc, ih hRest]
      rfl

theorem IgnoresBlanks.anywhere_append_singleton {c : Char} (hc : isBlank c) (t : Text) :
    anywhere (fun u => (recognise u).isSome) (t ++ [c]) =
      anywhere (fun u => (recognise u).isSome) t := by
  have hLast (u : Text) : (recognise (u ++ [c])).isSome = (recognise u).isSome := by
    rw [h.last c u hc, Option.isSome_map]
  induction t with
  | nil =>
      have hAlone := hLast []
      rw [List.nil_append] at hAlone
      simp [anywhere, hAlone]
  | cons d t ih =>
      rw [List.cons_append, anywhere, anywhere, ih, ← List.cons_append, hLast]

theorem IgnoresBlanks.anywhere_append_right {after : Text} (hBlank : ∀ c ∈ after, isBlank c)
    (t : Text) :
    anywhere (fun u => (recognise u).isSome) (t ++ after) =
      anywhere (fun u => (recognise u).isSome) t := by
  induction after generalizing t with
  | nil => rw [List.append_nil]
  | cons c after ih =>
      obtain ⟨hc, hRest⟩ := List.forall_mem_cons.1 hBlank
      rw [List.append_cons, ih hRest, h.anywhere_append_singleton hc]

/-- What is found anywhere in a text is found in it without the white space around it. -/
theorem IgnoresBlanks.anywhere_strip (t : Text) :
    anywhere (fun u => (recognise u).isSome) t.strip =
      anywhere (fun u => (recognise u).isSome) t := by
  obtain ⟨before, after, hText, hBefore, hAfter⟩ := exists_eq_append_strip t
  calc anywhere (fun u => (recognise u).isSome) t.strip
    _ = anywhere (fun u => (recognise u).isSome) (before ++ t.strip ++ after) := by
      rw [h.anywhere_append_right hAfter, h.anywhere_append_left hBefore]
    _ = anywhere (fun u => (recognise u).isSome) t := by rw [← hText]

end

theorem IgnoresBlanks.bind {first second : Text → Option Text} (hFirst : IgnoresBlanks first)
    (hSecond : ∀ c t, isBlank c → second (t ++ [c]) = (second t).map (· ++ [c])) :
    IgnoresBlanks fun t => (first t).bind second := by
  refine ⟨fun c t hc => by rw [hFirst.first c t hc]; rfl, fun c t hc => ?_⟩
  rw [hFirst.last c t hc]
  cases first t with
  | none => rfl
  | some rest => exact hSecond c rest hc

theorem ignoresBlanks_after? {lead : Text} (hFilled : lead ≠ [])
    (hLead : lead.any isBlank = false) : IgnoresBlanks (after? lead) := by
  have hNot {c : Char} (hc : isBlank c) : c ∉ lead := fun h => List.any_eq_false.1 hLead c h hc
  refine ⟨fun c t hc => ?_, fun c t hc => after?_append_cons (hNot hc) t []⟩
  obtain ⟨l, lead, rfl⟩ := List.exists_cons_of_ne_nil hFilled
  have hNe : l ≠ c := fun h => hNot hc (h ▸ List.mem_cons_self)
  rw [after?, if_neg hNe]

theorem ignoresBlanks_afterFolded? {lead : Text} (hFilled : lead ≠ [])
    (hLead : lead.any isBlank = false) : IgnoresBlanks (afterFolded? lead) := by
  have hNot {c : Char} (hc : isBlank c) : ∀ l ∈ lead, isLetterFolded l c = false :=
    fun l hl => isLetterFolded_of_isBlank (Bool.eq_false_iff.2 (List.any_eq_false.1 hLead l hl)) hc
  refine ⟨fun c t hc => ?_, fun c t hc => afterFolded?_append_cons (hNot hc) t []⟩
  obtain ⟨l, lead, rfl⟩ := List.exists_cons_of_ne_nil hFilled
  rw [afterFolded?, if_neg (by simp [hNot hc l List.mem_cons_self])]

end Text

theorem Call.opening?_append_singleton (c : Char) (t : Text) (hc : isBlank c) :
    opening? (t ++ [c]) = (opening? t).map (· ++ [c]) := by
  have hParenthesis : c ∉ ['('] := by
    rw [List.mem_singleton]
    rintro rfl
    exact absurd hc (by decide)
  unfold opening? Text.skipBlanks
  rw [List.dropWhile_append]
  split
  · next hEmpty => simp [List.isEmpty_iff.1 hEmpty, hc, Text.after?]
  · exact Text.after?_append_cons hParenthesis _ []

/-! ### Signs -/

namespace Response

theorem signs_strip (t : Text) : signs t.strip = signs t := by
  have hNamed (name : Text) (hFilled : name ≠ []) (hName : name.any isBlank = false) :
      Text.IgnoresBlanks (Call.named? name) :=
    (Text.ignoresBlanks_after? hFilled hName).bind Call.opening?_append_singleton
  have hTempo : Measure.setsTempo t.strip = Measure.setsTempo t :=
    ((Text.ignoresBlanks_afterFolded? (by decide) (by decide)).bind
      Call.opening?_append_singleton).anywhere_strip t
  have hVoice : t.strip.contains Measure.voiceMarker = t.contains Measure.voiceMarker :=
    (Text.ignoresBlanks_after? (by decide) (by decide)).anywhere_strip t
  have hNote := (hNamed "note" (by decide) (by decide)).anywhere_strip t
  have hSound := (hNamed "s" (by decide) (by decide)).anywhere_strip t
  have hGain := (hNamed ('.' :: "gain".toList) (by decide) (by decide)).anywhere_strip t
  unfold signs Call.method?
  rw [hTempo, hVoice, hNote, hSound, hGain]

/-- White space around a response makes no difference to its looks. -/
theorem looksLikeCode_strip (t : Text) : looksLikeCode t.strip = looksLikeCode t := by
  rw [looksLikeCode, looksLikeCode, signs_strip]

end Response

/-- Code without a fault of structure sets a tempo and opens a voice, so it looks like code. -/
theorem Response.looksLikeCode_of_structure {code : Text} (h : structureFault? code = none) :
    looksLikeCode code := by
  obtain ⟨line, rest, hLines, hFirst, hVoice, -⟩ := (structureFault?_eq_none_iff code).1 h
  obtain ⟨lead, hLead, more, hLine⟩ := (setsTempoFirst_iff line).1 hFirst
  have hInfix : lead <:+: code := by
    have hMem : line ∈ Measure.codeLines code := hLines ▸ List.mem_cons_self
    obtain ⟨whole, hWhole, rfl⟩ := List.mem_map.1 (List.mem_filter.1 hMem).1
    have hStart : lead <+: whole.strip := ⟨more, hLine.symm⟩
    exact hStart.isInfix.trans
      ((Text.strip_infix whole).trans (Text.infix_of_mem_lines hWhole))
  have hTempo : Measure.setsTempo code := by
    refine Text.anywhere_of_infix (fun rest => ?_) hInfix
    simp only [tempoLeads, List.mem_cons, List.not_mem_nil, or_false] at hLead
    rcases hLead with rfl | rfl <;> rfl
  simp [looksLikeCode, signs, hTempo, hVoice]

end Composer
