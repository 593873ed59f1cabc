import Composer.Proofs.Response.Finding

/-!
A fence that is never closed. It encloses no block, so a response with one fence only is taken as a
whole, like a response without fences, and the fence is handed on within the code together with
whatever prose stands behind it. No other fence gets into finished code: a block ends at its closing
fence, and undoing escapes neither makes a fence nor takes one away.
-/

namespace Composer

theorem Fence.infix_undo_iff (t : Text) : mark <:+: Escapes.undo t ↔ mark <:+: t := by
  apply Escapes.infix_undo_iff t _ mark_ne_nil
  intro x hx
  obtain rfl : x = '\x60' := by simpa [mark] using hx
  decide

/-- Fences are counted exactly where they stand. -/
theorem Fence.count_eq_zero_iff (t : Text) : count t = 0 ↔ ¬mark <:+: t := by
  constructor
  · intro hNone
    obtain ⟨pieces, hPieces⟩ := exists_splits t
    have hLength := hPieces.length_eq
    cases hPieces with
    | last h => exact h
    | @fence before rest pieces h hRest =>
        rw [count_append h] at hNone
        exact absurd hNone (Nat.succ_ne_zero _)
  · exact count_eq_zero

namespace Response

/-- The code that is found has a fence in it only where the response has one fence in all, and then
it is the response itself. -/
theorem artifact_fence_iff (response code : Text) :
    (artifact response = .ok code ∧ Fence.mark <:+: code) ↔
      Fence.count response.strip = 1 ∧ response.isBlankText = false ∧ looksLikeCode response ∧
        code = response.strip := by
  have hLength := length_blocks response.strip
  rw [artifact_eq_ok_iff]
  constructor
  · rintro ⟨⟨block, hBlock, -, rfl⟩ | ⟨hNone, hFilled, hLooks, rfl⟩, hFence⟩
    · obtain ⟨pieces, hPieces⟩ := Fence.exists_splits response.strip
      obtain ⟨-, -, hUnfenced⟩ := Fence.blocks_of_splits hPieces
      have hMem : block ∈ Fence.blocks response.strip := hBlock ▸ List.mem_singleton_self block
      exact absurd (hFence.trans (Text.strip_infix block)) (hUnfenced block hMem)
    · have hSome := mt (Fence.count_eq_zero_iff response.strip).1 (not_not_intro hFence)
      rw [hNone, List.length_nil] at hLength
      exact ⟨by omega, hFilled, hLooks, rfl⟩
  · rintro ⟨hOne, hFilled, hLooks, rfl⟩
    have hNone := List.eq_nil_of_length_eq_zero (hLength.trans (by omega))
    have hFence := mt (Fence.count_eq_zero_iff response.strip).2 (by omega)
    exact ⟨.inr ⟨hNone, hFilled, hLooks, rfl⟩, not_not.1 hFence⟩

end Response

/-- Finished code has a fence in it exactly when it is a whole response, freed of its escapes, that
has one fence without a partner and no fault of structure. -/
theorem Extraction.parsed_fence_iff (response code : Text) :
    ((parse response).code? = some code ∧ Fence.mark <:+: code) ↔
      Fence.count response.strip = 1 ∧ structureFault? response.strip = none ∧
        code = Escapes.undo response.strip := by
  rw [code?_parse_eq_some_iff, Response.finishedArtifact_eq_ok_iff]
  constructor
  · rintro ⟨⟨found, hFound, hSound, rfl⟩, hFence⟩
    obtain ⟨hOne, -, -, rfl⟩ := (Response.artifact_fence_iff response found).1
      ⟨hFound, (Fence.infix_undo_iff found).1 hFence⟩
    exact ⟨hOne, hSound, rfl⟩
  · rintro ⟨hOne, hSound, rfl⟩
    have hLooks := Response.looksLikeCode_of_structure hSound
    rw [Response.looksLikeCode_strip] at hLooks
    have hFilled : response.isBlankText = false := by
      rw [← Bool.not_eq_true, ← Text.strip_eq_nil_iff]
      intro hEmpty
      rw [hEmpty] at hOne
      exact absurd hOne (by decide)
    obtain ⟨hFound, hFence⟩ := (Response.artifact_fence_iff response response.strip).2
      ⟨hOne, hFilled, hLooks, rfl⟩
    exact ⟨⟨response.strip, hFound, hSound, rfl⟩, (Fence.infix_undo_iff response.strip).2 hFence⟩

/-- Code, a fence that closes nothing, and prose. -/
def Response.trailingResponse : Text :=
  "setcpm(90)\n$: s(\"bd\")\n```\nThis pattern is slow and simple."

/-- The fence and the prose behind it are handed out as code. -/
theorem Response.parsed_code_keeps_fence :
    (Extraction.parse trailingResponse).code? = some trailingResponse ∧
    Fence.mark <:+: trailingResponse := by
  rw [← Text.contains_iff_infix]
  decide +kernel

end Composer
