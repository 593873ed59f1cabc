import Composer.Proofs.Text.Cutting
import Composer.Response.Extraction

/-!
Taking code out of a response. A response without fences is taken as a whole, once it looks like
pattern code and has no white space at its ends; the finished code is the code that was found, freed
of its escapes.
-/

namespace Composer

/-- A text without backquotes has no blocks. -/
theorem Fence.blocks_eq_nil {t : Text} (h : backquote ∉ t) : Fence.blocks t = [] := by
  have hCut : Text.cut? mark t = none := Text.cut?_eq_none h
  unfold blocks pairs
  split
  · rfl
  · next hSome => exact absurd (hCut.symm.trans hSome) (by simp)

/-- A response without backquotes and without white space at its ends is itself the code, if it
looks like code. -/
theorem Response.artifact_eq_self {t : Text} (hFirst : ∀ c ∈ t.head?, isBlank c = false)
    (hLast : ∀ c ∈ t.getLast?, isBlank c = false) (hFence : backquote ∉ t)
    (hSigns : looksLikeCode t) : artifact t = .ok t := by
  have hStrip : t.strip = t := Text.trimWhere_eq_self hFirst hLast
  have hEmpty : t.isEmpty = false := by
    cases t with
    | nil => exact absurd hSigns (by decide)
    | cons c t => rfl
  simp [artifact, hStrip, hEmpty, Fence.blocks_eq_nil hFence, hSigns]

/-- No code is found in a text of nothing but white space. -/
theorem Response.isBlankText_eq_false {t code : Text} (h : artifact t = .ok code) :
    t.isBlankText = false := by
  rw [← Bool.not_eq_true]
  intro hBlank
  have hStrip : t.strip = [] := (Text.strip_eq_nil_iff t).2 hBlank
  simp [artifact, hStrip] at h

/-- Finished code is code that was found, whose structure has no fault, freed of its escapes. -/
theorem Response.finishedArtifact_eq_ok_iff (t found : Text) :
    finishedArtifact t = .ok found ↔
      ∃ code, artifact t = .ok code ∧ structureFault? code = none ∧ found = Escapes.undo code := by
  unfold finishedArtifact
  cases artifact t with
  | error fault => simp
  | ok code =>
      cases hStructure : structureFault? code with
      | some fault => simp [hStructure]
      | none => simp [hStructure, eq_comm]

end Composer
