import Composer.Proofs.Response.Fences
import Composer.Proofs.Response.Signs

/-!
What is found in a response. How many fences it has decides where its code is looked for: in the one
block of two or three fences, or in the response as a whole when there are fewer. A block is found
whatever text stands around it, and its code is the code that is found without a fence.
-/

namespace Composer

namespace Response

/-- Code is found in the only block, or in a response without blocks that looks like code. -/
theorem artifact_eq_ok_iff (response code : Text) :
    artifact response = .ok code ↔
      (∃ block, Fence.blocks response.strip = [block] ∧ block.isBlankText = false ∧
        code = block.strip) ∨
      Fence.blocks response.strip = [] ∧ response.isBlankText = false ∧ looksLikeCode response ∧
        code = response.strip := by
  have hBlank (t : Text) : t.strip.isEmpty = t.isBlankText := by
    rw [Bool.eq_iff_iff, List.isEmpty_iff, Text.strip_eq_nil_iff]
  simp only [artifact, hBlank, looksLikeCode_strip]
  cases hResponse : response.isBlankText with
  | true =>
      have hBlocks : Fence.blocks response.strip = [] := by
        rw [(Text.strip_eq_nil_iff response).2 hResponse]
        exact Fence.blocks_eq_nil List.not_mem_nil
      simp [hBlocks]
  | false =>
      cases Fence.blocks response.strip with
      | nil => cases looksLikeCode response <;> simp [@eq_comm _ code]
      | cons block others =>
          cases others with
          | nil => cases hBlock : block.isBlankText <;> simp [hBlock, @eq_comm _ code]
          | cons second others => simp

/-- The number of blocks of a text is half the number of its fences. -/
theorem length_blocks (t : Text) : (Fence.blocks t).length = Fence.count t / 2 := by
  obtain ⟨pieces, hPieces⟩ := Fence.exists_splits t
  exact (Fence.blocks_of_splits hPieces).1

/-- Whether code is found depends on the number of fences. -/
theorem exists_artifact_iff (response : Text) :
    (∃ code, artifact response = .ok code) ↔
      (Fence.count response.strip = 2 ∨ Fence.count response.strip = 3) ∧
        (∃ block ∈ Fence.blocks response.strip, block.isBlankText = false) ∨
      Fence.count response.strip < 2 ∧ response.isBlankText = false ∧
        2 ≤ (signs response).count true := by
  have hLength := length_blocks response.strip
  simp only [artifact_eq_ok_iff, looksLikeCode, decide_eq_true_eq]
  constructor
  · rintro ⟨code, ⟨block, hBlock, hFilled, -⟩ | ⟨hNone, hFilled, hSigns, -⟩⟩
    · rw [hBlock, List.length_singleton] at hLength
      exact .inl ⟨by omega, block, by simp [hBlock], hFilled⟩
    · rw [hNone, List.length_nil] at hLength
      exact .inr ⟨by omega, hFilled, hSigns⟩
  · rintro (⟨hCount, block, hBlock, hFilled⟩ | ⟨hCount, hFilled, hSigns⟩)
    · obtain ⟨only, hOnly⟩ := List.length_eq_one_iff.1 (hLength.trans (by omega))
      rw [hOnly, List.mem_singleton] at hBlock
      exact ⟨_, .inl ⟨block, hBlock ▸ hOnly, hFilled, rfl⟩⟩
    · have hNone := List.eq_nil_of_length_eq_zero (hLength.trans (by omega))
      exact ⟨_, .inr ⟨hNone, hFilled, hSigns, rfl⟩⟩

/-- Code that is found is not empty and has no white space at its ends. -/
theorem strip_artifact {response code : Text} (h : artifact response = .ok code) :
    code ≠ [] ∧ code.strip = code := by
  have hFilled {t : Text} (ht : t.isBlankText = false) : t.strip ≠ [] := by
    rw [Ne, Text.strip_eq_nil_iff, ht]
    exact Bool.false_ne_true
  rcases (artifact_eq_ok_iff response code).1 h with ⟨block, -, hBlock, rfl⟩ | ⟨-, hAll, -, rfl⟩
  · exact ⟨hFilled hBlock, Text.strip_strip block⟩
  · exact ⟨hFilled hAll, Text.strip_strip response⟩

end Response

namespace Extraction

/-- A failure keeps the response. -/
theorem eq_some_of_ofAttempt {response error : Text} {kept : Option Text}
    {found : Except ExtractionFault Text} (h : ofAttempt response found = .failure error kept) :
    kept = some response := by
  cases found with
  | ok code => exact absurd h (by simp [ofAttempt])
  | error fault =>
      simp only [ofAttempt, failure.injEq] at h
      exact h.2.symm

theorem code?_extract_eq_some_iff (response code : Text) :
    (extract response).code? = some code ↔ Response.artifact response = .ok code := by
  unfold extract ofAttempt
  cases Response.artifact response with
  | error fault => simp [code?]
  | ok found => simp [code?]

/-- Code that is found is parsed to itself without escapes, or to the fault of its structure. -/
theorem parse_eq_of_artifact {response code : Text} (h : Response.artifact response = .ok code) :
    parse response =
      match structureFault? code with
      | none => .success (Escapes.undo code) none
      | some fault => .failure fault.message (some response) := by
  simp only [parse, Response.finishedArtifact, h]
  cases structureFault? code <;> rfl

/-- The blocks of a text are what stands between its fences, and how many fences there are decides
where code is looked for. A response in which none is found is kept with the failure; code that is
found has no white space at its ends and is not empty. -/
theorem finds_blocks (response : Text) :
    (∃ pieces, Fence.Splits response pieces ∧ pieces.length = Fence.count response + 1 ∧
      (Fence.blocks response).length = Fence.count response / 2 ∧
      (∀ i < Fence.count response / 2, ∃ between block, pieces[2 * i + 1]? = some between ∧
        (Fence.blocks response)[i]? = some block ∧ Fence.Unwraps between block) ∧
      ∀ block ∈ Fence.blocks response, ¬Fence.mark <:+: block) ∧
    ((extract response).code?.isSome ↔
      (Fence.count response.strip = 2 ∨ Fence.count response.strip = 3) ∧
        (∃ block ∈ Fence.blocks response.strip, block.isBlankText = false) ∨
      Fence.count response.strip < 2 ∧ response.isBlankText = false ∧
        2 ≤ (Response.signs response).count true) ∧
    (∀ error kept, extract response = .failure error kept → kept = some response) ∧
    (∀ error kept, parse response = .failure error kept → kept = some response) ∧
    ∀ code, (extract response).code? = some code → code ≠ [] ∧ code.strip = code := by
  refine ⟨?_, ?_, fun _ _ h => eq_some_of_ofAttempt h, fun _ _ h => eq_some_of_ofAttempt h, ?_⟩
  · obtain ⟨pieces, hPieces⟩ := Fence.exists_splits response
    exact ⟨pieces, hPieces, hPieces.length_eq, Fence.blocks_of_splits hPieces⟩
  · rw [Option.isSome_iff_exists, ← Response.exists_artifact_iff]
    simp only [code?_extract_eq_some_iff]
  · intro code hCode
    exact Response.strip_artifact ((code?_extract_eq_some_iff response code).1 hCode)

end Extraction

/-! ### Code in a fenced block -/

/-- A response with code in a fenced block, and other text before and after it. -/
def Response.enclosing (before tag code after : Text) : Text :=
  before ++ Fence.mark ++ tag ++ Text.lineFeed :: code ++ Text.lineFeed :: Fence.mark ++ after

section
variable {before tag code after : Text} (hTag : tag ∈ [] :: Fence.tags)
  (hFilled : code.isBlankText = false) (hCode : ¬Fence.mark <:+: code)
  (hBefore : ¬Fence.mark <:+: before) (hLast : before.getLast? ≠ some backquote)
  (hAfter : ¬Fence.mark <:+: after)
include hTag hFilled hCode hBefore hLast hAfter

/-- The code of a fenced block is found, whatever stands around the block. -/
theorem Response.artifact_enclosing :
    artifact (enclosing before tag code after) = .ok code.strip := by
  have hResponse : enclosing before tag code after = before ++
      (Fence.mark ++ (tag ++ Text.lineFeed :: (code ++ [Text.lineFeed])) ++ Fence.mark) ++
        after := by
    simp [enclosing]
  have hBetween : ¬Fence.mark <:+:
      tag ++ Text.lineFeed :: (code ++ [Text.lineFeed]) ++ Fence.mark.dropLast := by
    have hFeed : Text.lineFeed ∉ Fence.mark := by decide
    have hPlain : ∀ tag ∈ [] :: Fence.tags, backquote ∉ tag := by decide
    have hNoTag : ¬Fence.mark <:+: tag := fun h => hPlain tag hTag (h.subset List.mem_cons_self)
    rw [List.append_assoc, List.cons_append, List.append_assoc, List.singleton_append,
      Text.infix_append_cons_iff hFeed, Text.infix_append_cons_iff hFeed]
    exact not_or.2 ⟨hNoTag, not_or.2 ⟨hCode, Text.not_infix_dropLast Fence.mark_ne_nil⟩⟩
  refine (artifact_eq_ok_iff _ _).2 (.inl ⟨code ++ [Text.lineFeed], ?_, ?_, ?_⟩)
  · rw [hResponse, Fence.blocks_strip, Fence.blocks_fenced hBefore hLast hBetween hAfter,
      Fence.content_tagged hTag]
  · rw [Text.isBlankText, List.all_append, ← Text.isBlankText, hFilled]
    rfl
  · exact (Text.strip_append_singleton code rfl).symm

omit hTag hBefore hLast hAfter in
/-- Code without a fence in it, and without a fault of structure, is found as it is. -/
theorem Response.artifact_eq_strip (hSound : structureFault? code.strip = none) :
    artifact code = .ok code.strip := by
  have hBlocks : Fence.blocks code.strip = [] := by
    have hNone : ¬Fence.mark <:+: code.strip := fun h => hCode (h.trans (Text.strip_infix code))
    rw [Fence.blocks, (Fence.Splits.last hNone).pairs_eq]
    rfl
  have hLooks := looksLikeCode_of_structure hSound
  rw [looksLikeCode_strip] at hLooks
  exact (artifact_eq_ok_iff code _).2 (.inr ⟨hBlocks, hFilled, hLooks, rfl⟩)

/-- What is parsed of a response with one block is what its code gives: the code freed of escapes
when its structure has no fault, and else the first fault, whatever stands before and after the
block. In the former case the code alone, without a fence, is parsed to the same. -/
theorem Extraction.parse_enclosing :
    (parse (Response.enclosing before tag code after) =
      match structureFault? code.strip with
      | none => .success (Escapes.undo code.strip) none
      | some fault =>
        .failure fault.message (some (Response.enclosing before tag code after))) ∧
    (structureFault? code.strip = none →
      parse code = .success (Escapes.undo code.strip) none) := by
  refine ⟨parse_eq_of_artifact
    (Response.artifact_enclosing hTag hFilled hCode hBefore hLast hAfter), fun hSound => ?_⟩
  rw [parse_eq_of_artifact (Response.artifact_eq_strip hFilled hCode hSound), hSound]

end

namespace Response

/-- Code whose first line and last line end with backquotes, and in which a line end is escaped. -/
def quotingCode : Text := "// ``\nsetcpm(90)\n$: s('b\\nd') // ``"

def unescapedQuotingCode : Text := "// ``\nsetcpm(90)\n$: s('b\nd') // ``"

end Response

/-- Backquotes stand before the closing fence and right behind it; the code is found in the block,
and the same code without the block. -/
theorem Extraction.parse_enclosing_of_quoting :
    parse (Response.enclosing "The `s` voice:\n" "js" Response.quotingCode "`` as asked") =
      .success Response.unescapedQuotingCode none ∧
    parse Response.quotingCode = .success Response.unescapedQuotingCode none := by
  have hPlain {t : Text} (h : t.contains Fence.mark = false) : ¬Fence.mark <:+: t :=
    mt (Text.contains_iff_infix t Fence.mark).2 (by simp [h])
  have hSound : structureFault? Response.quotingCode.strip = none := by decide +kernel
  have hUndone : Escapes.undo Response.quotingCode.strip = Response.unescapedQuotingCode := by
    decide +kernel
  have hParsed := @Extraction.parse_enclosing "The `s` voice:\n" "js" Response.quotingCode
    "`` as asked" (by decide) (by decide) (hPlain (by decide)) (hPlain (by decide)) (by decide)
    (hPlain (by decide))
  rw [hSound, hUndone] at hParsed
  exact ⟨hParsed.1, hParsed.2 rfl⟩

end Composer
