import Composer.Proofs.Response.Artifact
import Composer.Proofs.Text.Joining

/-!
Which blocks a text has. The fences of a text, found from left to right without overlaps, split it
into pieces; the second piece, the fourth and so on are fenced, as far as another piece follows. So
there are half as many blocks as fences, and a block is a fenced piece without one tag and one line
feed. Text around a pair of fences makes no difference, as long as it neither has a fence nor runs
on into one.
-/

namespace Composer.Fence

/-! ### Fences -/

/-- The number of fences in a text, found from left to right without overlaps. -/
def count : Text → Nat
  | [] => 0
  | '\x60' :: '\x60' :: '\x60' :: t => count t + 1
  | _ :: t => count t

/-- A text split at its fences, from left to right without overlaps: each of them is the first one
in what the fences before it leave. -/
inductive Splits : Text → List Text → Prop where
  | last {t : Text} (h : ¬mark <:+: t) : Splits t [t]
  | fence {before rest : Text} {pieces : List Text} (h : ¬mark <:+: before ++ mark.dropLast)
      (hRest : Splits rest pieces) : Splits (before ++ mark ++ rest) (before :: pieces)

theorem exists_splits (t : Text) : ∃ pieces, Splits t pieces := by
  induction hLength : t.length using Nat.strongRecOn generalizing t with
  | ind n ih =>
      subst hLength
      cases hCut : Text.cut? mark t with
      | none => exact ⟨[t], .last ((Text.cut?_eq_none_iff t).1 hCut)⟩
      | some cut =>
          obtain ⟨before, rest⟩ := cut
          have hShorter := Text.length_lt_of_cut?_eq_some mark_ne_nil hCut
          obtain ⟨pieces, hRest⟩ := ih _ hShorter rest rfl
          rw [Text.eq_append_of_cut?_eq_some hCut]
          exact ⟨before :: pieces,
            .fence (Text.not_infix_of_cut?_eq_some mark_ne_nil hCut) hRest⟩

theorem count_cons {c : Char} {t : Text} (h : ¬mark <+: c :: t) : count (c :: t) = count t := by
  refine count.eq_3 c t fun u hc ht => h ?_
  rw [hc, ht]
  exact ⟨u, rfl⟩

theorem count_eq_zero {t : Text} (h : ¬mark <:+: t) : count t = 0 := by
  induction t with
  | nil => rfl
  | cons c t ih =>
      rw [List.infix_cons_iff, not_or] at h
      rw [count_cons h.1, ih h.2]

/-- Up to the first fence there is nothing to count. -/
theorem count_append {before : Text} (h : ¬mark <:+: before ++ mark.dropLast) (rest : Text) :
    count (before ++ mark ++ rest) = count rest + 1 := by
  induction before with
  | nil => rfl
  | cons c before ih =>
      have hNone : ¬mark <+: c :: (before ++ mark ++ rest) :=
        Text.not_prefix_append (List.cons_ne_nil c before) h rest
      rw [List.cons_append, List.cons_append, count_cons hNone,
        ih fun hInfix => h (List.infix_cons hInfix)]

namespace Splits
variable {t : Text} {pieces : List Text}

theorem length_eq (h : Splits t pieces) : pieces.length = count t + 1 := by
  induction h with
  | last h => rw [count_eq_zero h]; rfl
  | fence h hRest ih => rw [count_append h, List.length_cons, ih]

/-- A text without fences is one piece. -/
theorem eq_singleton (h : Splits t pieces) (hCut : Text.cut? mark t = none) : pieces = [t] := by
  cases h with
  | last h => rfl
  | fence h hRest => rw [Text.cut?_append mark_ne_nil h] at hCut; exact absurd hCut (by simp)

/-- The first piece is what stands before the first fence. -/
theorem exists_eq_cons {before rest : Text} (h : Splits t pieces)
    (hCut : Text.cut? mark t = some (before, rest)) :
    ∃ more, pieces = before :: more ∧ Splits rest more := by
  cases h with
  | last h =>
      rw [(Text.cut?_eq_none_iff t).2 h] at hCut
      exact absurd hCut (by simp)
  | fence h hRest =>
      rw [Text.cut?_append mark_ne_nil h] at hCut
      obtain ⟨rfl, rfl⟩ := Prod.mk.inj (Option.some.inj hCut)
      exact ⟨_, rfl, hRest⟩

/-- No piece has a fence. -/
theorem not_infix (h : Splits t pieces) : ∀ piece ∈ pieces, ¬mark <:+: piece := by
  induction h with
  | last h => exact List.forall_mem_singleton.2 h
  | @fence before rest pieces h hRest ih =>
      exact List.forall_mem_cons.2
        ⟨fun hInfix => h (hInfix.trans (List.prefix_append ..).isInfix), ih⟩

end Splits

/-! ### Pairs of fences -/

/-- The pieces that stand between the two fences of a pair. -/
def fenced : List Text → List Text
  | _ :: between :: next :: rest => between :: fenced (next :: rest)
  | [_, _] => []
  | [_] => []
  | [] => []

theorem Splits.pairs_eq {t : Text} {pieces : List Text} (h : Splits t pieces) :
    pairs t = fenced pieces := by
  fun_induction pairs t generalizing pieces with
  | case1 t hOpen =>
      rw [h.eq_singleton hOpen]
      rfl
  | case2 t before rest hOpen hClose =>
      obtain ⟨more, rfl, hRest⟩ := h.exists_eq_cons hOpen
      rw [hRest.eq_singleton hClose]
      rfl
  | case3 t before after hOpen between rest hClose ih =>
      obtain ⟨more, rfl, hAfter⟩ := h.exists_eq_cons hOpen
      obtain ⟨more, rfl, hRest⟩ := hAfter.exists_eq_cons hClose
      obtain ⟨next, others, rfl⟩ :=
        List.exists_cons_of_length_eq_add_one hRest.length_eq
      rw [fenced, ih hRest]

theorem length_fenced (pieces : List Text) : (fenced pieces).length = (pieces.length - 1) / 2 := by
  fun_induction fenced pieces with
  | case1 first between next rest ih => simp only [List.length_cons] at ih ⊢; omega
  | case2 => simp
  | case3 => simp
  | case4 => simp

theorem mem_of_mem_fenced {pieces : List Text} {piece : Text} (h : piece ∈ fenced pieces) :
    piece ∈ pieces := by
  fun_induction fenced pieces with
  | case1 first between next rest ih =>
      rcases List.mem_cons.1 h with rfl | hRest
      · simp
      · exact List.mem_cons_of_mem first (List.mem_cons_of_mem between (ih hRest))
  | case2 => exact absurd h List.not_mem_nil
  | case3 => exact absurd h List.not_mem_nil
  | case4 => exact absurd h List.not_mem_nil

theorem getElem?_fenced {pieces : List Text} {i : Nat} (h : i < (fenced pieces).length) :
    (fenced pieces)[i]? = pieces[2 * i + 1]? := by
  fun_induction fenced pieces generalizing i with
  | case1 first between next rest ih =>
      cases i with
      | zero => rfl
      | succ i =>
          have hRest := ih (Nat.lt_of_succ_lt_succ h)
          rw [List.getElem?_cons_succ, hRest, Nat.mul_add]
          rfl
  | case2 => exact absurd h (Nat.not_lt_zero i)
  | case3 => exact absurd h (Nat.not_lt_zero i)
  | case4 => exact absurd h (Nat.not_lt_zero i)

/-! ### White space around a text -/

section
variable {t before rest : Text}

theorem pairs_of_unopened (hOpen : Text.cut? mark t = none) : pairs t = [] := by
  unfold pairs
  split
  · rfl
  · next hSome => exact absurd (hOpen.symm.trans hSome) (by simp)

theorem pairs_of_unclosed (hOpen : Text.cut? mark t = some (before, rest))
    (hClose : Text.cut? mark rest = none) : pairs t = [] := by
  unfold pairs
  split
  · rfl
  · next hSome =>
      obtain ⟨-, rfl⟩ := Prod.mk.inj (Option.some.inj (hOpen.symm.trans hSome))
      split
      · rfl
      · next hClosed => exact absurd (hClose.symm.trans hClosed) (by simp)

theorem pairs_of_closed {between after : Text} (hOpen : Text.cut? mark t = some (before, rest))
    (hClose : Text.cut? mark rest = some (between, after)) : pairs t = between :: pairs after := by
  rw [pairs]
  split
  · next hNone => exact absurd (hOpen.symm.trans hNone) (by simp)
  · next hSome =>
      obtain ⟨-, rfl⟩ := Prod.mk.inj (Option.some.inj (hOpen.symm.trans hSome))
      split
      · next hNone => exact absurd (hClose.symm.trans hNone) (by simp)
      · next hClosed =>
          obtain ⟨rfl, rfl⟩ := Prod.mk.inj (Option.some.inj (hClose.symm.trans hClosed))
          rfl

end

/-- The block that stands between the two fences of the first pair. -/
theorem exists_cuts_of_pairs_eq_cons {t between : Text} {more : List Text}
    (h : pairs t = between :: more) :
    ∃ before rest after, Text.cut? mark t = some (before, rest) ∧
      Text.cut? mark rest = some (between, after) := by
  cases hOpen : Text.cut? mark t with
  | none => exact absurd ((pairs_of_unopened hOpen).symm.trans h) (by simp)
  | some opened =>
      cases hClose : Text.cut? mark opened.2 with
      | none => exact absurd ((pairs_of_unclosed hOpen hClose).symm.trans h) (by simp)
      | some closed =>
          obtain ⟨rfl, -⟩ := List.cons.inj ((pairs_of_closed hOpen hClose).symm.trans h)
          exact ⟨opened.1, opened.2, closed.2, rfl, hClose⟩

theorem pairs_append_left {lead : Text} (hLead : ∀ c ∈ lead, c ∉ mark) (t : Text) :
    pairs (lead ++ t) = pairs t := by
  have hOpen := Text.cut?_append_left mark_ne_nil hLead t
  cases hCut : Text.cut? mark t with
  | none =>
      rw [hCut] at hOpen
      rw [pairs_of_unopened hOpen, pairs_of_unopened hCut]
  | some cut =>
      rw [hCut] at hOpen
      cases hClose : Text.cut? mark cut.2 with
      | none => rw [pairs_of_unclosed hOpen hClose, pairs_of_unclosed hCut hClose]
      | some closed => rw [pairs_of_closed hOpen hClose, pairs_of_closed hCut hClose]

theorem pairs_append_right {more : Text} (hMore : ∀ c ∈ more, c ∉ mark) (t : Text) :
    pairs (t ++ more) = pairs t := by
  have hCut (u : Text) := Text.cut?_append_right mark_ne_nil hMore u
  fun_induction pairs t with
  | case1 t hOpen => exact pairs_of_unopened (by rw [hCut, hOpen]; rfl)
  | case2 t before rest hOpen hClose =>
      have hOpenMore : Text.cut? mark (t ++ more) = some (before, rest ++ more) := by
        rw [hCut, hOpen]
        rfl
      have hCloseMore : Text.cut? mark (rest ++ more) = none := by
        rw [hCut, hClose]
        rfl
      exact pairs_of_unclosed hOpenMore hCloseMore
  | case3 t before after hOpen between rest hClose ih =>
      have hOpenMore : Text.cut? mark (t ++ more) = some (before, after ++ more) := by
        rw [hCut, hOpen]
        rfl
      have hCloseMore : Text.cut? mark (after ++ more) = some (between, rest ++ more) := by
        rw [hCut, hClose]
        rfl
      rw [pairs_of_closed hOpenMore hCloseMore, ih]

/-- White space at the ends of a text has no part in its blocks. -/
theorem pairs_strip (t : Text) : pairs t.strip = pairs t := by
  have hBlank {c : Char} (hc : isBlank c) : c ∉ mark := by
    intro hMem
    obtain rfl : c = backquote := List.eq_of_mem_replicate (n := 3) hMem
    exact absurd hc (by decide)
  obtain ⟨before, after, hText, hBefore, hAfter⟩ := Text.exists_eq_append_strip t
  calc pairs t.strip
    _ = pairs (before ++ t.strip) := (pairs_append_left (fun c hc => hBlank (hBefore c hc)) _).symm
    _ = pairs (before ++ t.strip ++ after) :=
      (pairs_append_right (fun c hc => hBlank (hAfter c hc)) _).symm
    _ = pairs t := congrArg pairs hText.symm

theorem blocks_strip (t : Text) : blocks t.strip = blocks t := by
  rw [blocks, pairs_strip, blocks]

/-! ### The content of a block -/

/-- A block as it is read off what stands between two fences: without the longest tag that stands at
its beginning, and then without one line feed. -/
def Unwraps (between block : Text) : Prop :=
  ∃ tag ∈ [] :: tags, ∃ feed ∈ [[], [Text.lineFeed]], between = tag ++ feed ++ block ∧
    (∀ other ∈ tags, other <+: between → other.length ≤ tag.length) ∧
    (feed = [] → block.head? ≠ some Text.lineFeed)

/-- One tag is left out, and no tag is the beginning of another. -/
theorem exists_tag (between : Text) :
    ∃ tag ∈ [] :: tags, between = tag ++ (tags.findSome? (Text.after? · between)).getD between ∧
      ∀ other ∈ tags, other <+: between → other.length ≤ tag.length := by
  cases hFound : tags.findSome? (Text.after? · between) with
  | none =>
      refine ⟨[], List.mem_cons_self, rfl, fun other hOther hPrefix => ?_⟩
      have hNone := List.findSome?_eq_none_iff.1 hFound other hOther
      exact absurd hPrefix ((Text.after?_eq_none_iff other between).1 hNone)
  | some rest =>
      obtain ⟨tag, hTag, hAfter⟩ := List.exists_of_findSome?_eq_some hFound
      have hText := Text.eq_append_of_after?_eq_some hAfter
      refine ⟨tag, List.mem_cons_of_mem _ hTag, hText, fun other hOther hPrefix => ?_⟩
      have hApart : ∀ first ∈ tags, ∀ second ∈ tags, first <+: second → first = second := by
        decide
      have hStart : tag <+: between := ⟨rest, hText.symm⟩
      rcases List.prefix_or_prefix_of_prefix hStart hPrefix with hLonger | hShorter
      · rw [hApart tag hTag other hOther hLonger]
      · exact hShorter.length_le

theorem exists_feed (t : Text) :
    ∃ feed ∈ [[], [Text.lineFeed]], t = feed ++ (Text.after? [Text.lineFeed] t).getD t ∧
      (feed = [] → ((Text.after? [Text.lineFeed] t).getD t).head? ≠ some Text.lineFeed) := by
  cases hAfter : Text.after? [Text.lineFeed] t with
  | none =>
      refine ⟨[], List.mem_cons_self, rfl, fun _ hHead => ?_⟩
      obtain ⟨rest, hFeed⟩ := List.head?_eq_some_iff.1 hHead
      rw [Option.getD_none] at hFeed
      exact absurd hAfter (by simp [hFeed, Text.after?])
  | some rest =>
      exact ⟨[Text.lineFeed], by simp, Text.eq_append_of_after?_eq_some hAfter, by simp⟩

theorem unwraps_content (between : Text) : Unwraps between (content between) := by
  obtain ⟨tag, hTag, hText, hLongest⟩ := exists_tag between
  obtain ⟨feed, hFeed, hRest, hNoFeed⟩ :=
    exists_feed ((tags.findSome? (Text.after? · between)).getD between)
  refine ⟨tag, hTag, feed, hFeed, ?_, hLongest, hNoFeed⟩
  calc between
    _ = tag ++ (feed ++ content between) := hText.trans (congrArg (tag ++ ·) hRest)
    _ = tag ++ feed ++ content between := (List.append_assoc ..).symm

theorem Unwraps.suffix {between block : Text} (h : Unwraps between block) : block <:+ between := by
  obtain ⟨tag, -, feed, -, rfl, -⟩ := h
  exact List.suffix_append ..

/-- Every second of the pieces between the fences of a text gives a block, and no fence is left in
one. -/
theorem blocks_of_splits {t : Text} {pieces : List Text} (h : Splits t pieces) :
    (blocks t).length = count t / 2 ∧
    (∀ i < count t / 2, ∃ between block, pieces[2 * i + 1]? = some between ∧
      (blocks t)[i]? = some block ∧ Unwraps between block) ∧
    ∀ block ∈ blocks t, ¬mark <:+: block := by
  have hLength : (fenced pieces).length = count t / 2 := by
    rw [length_fenced, h.length_eq, Nat.add_sub_cancel]
  rw [blocks, h.pairs_eq]
  refine ⟨by rw [List.length_map, hLength], fun i hi => ?_, List.forall_mem_map.2 ?_⟩
  · have hInside : i < (fenced pieces).length := hLength ▸ hi
    refine ⟨(fenced pieces)[i], _, ?_, ?_, unwraps_content _⟩
    · rw [← getElem?_fenced hInside, List.getElem?_eq_getElem hInside]
    · rw [List.getElem?_map, List.getElem?_eq_getElem hInside, Option.map_some]
  · intro between hBetween hInfix
    exact h.not_infix between (mem_of_mem_fenced hBetween)
      (hInfix.trans (unwraps_content between).suffix.isInfix)

/-! ### One pair of fences -/

/-- The content of a block with a tag, or without one, on the line of its fence. -/
theorem content_tagged {tag : Text} (hTag : tag ∈ [] :: tags) (rest : Text) :
    content (tag ++ Text.lineFeed :: rest) = rest := by
  simp only [tags, List.mem_cons, List.not_mem_nil, or_false] at hTag
  rcases hTag with rfl | rfl | rfl | rfl <;> rfl

/-- Two fences, and no other, make one block. -/
theorem blocks_eq_singleton {before between after : Text}
    (hBefore : ¬mark <:+: before ++ mark.dropLast)
    (hBetween : ¬mark <:+: between ++ mark.dropLast) (hAfter : ¬mark <:+: after) :
    blocks (before ++ mark ++ (between ++ mark ++ after)) = [content between] := by
  have hSplits : Splits (before ++ mark ++ (between ++ mark ++ after)) [before, between, after] :=
    .fence hBefore (.fence hBetween (.last hAfter))
  rw [blocks, hSplits.pairs_eq]
  rfl

/-- A text that neither has a fence nor ends with a backquote makes none with the fence behind
it. -/
theorem not_infix_append_dropLast {before : Text} (hBefore : ¬mark <:+: before)
    (hLast : before.getLast? ≠ some backquote) : ¬mark <:+: before ++ mark.dropLast := by
  rcases List.eq_nil_or_concat before with rfl | ⟨lead, c, rfl⟩
  · exact Text.not_infix_dropLast mark_ne_nil
  · rw [List.concat_eq_append] at hBefore hLast ⊢
    have hc : c ∉ mark := by
      intro hMem
      have hOnly : c = backquote := List.eq_of_mem_replicate (n := 3) hMem
      rw [List.getLast?_concat, hOnly] at hLast
      exact hLast rfl
    rw [List.append_assoc, List.singleton_append, Text.infix_append_cons_iff hc]
    exact not_or.2 ⟨fun h => hBefore (h.trans (List.prefix_append ..).isInfix),
      Text.not_infix_dropLast mark_ne_nil⟩

/-- What is enclosed in a pair of fences is the only block, whatever stands around the pair. -/
theorem blocks_fenced {before between after : Text} (hBefore : ¬mark <:+: before)
    (hLast : before.getLast? ≠ some backquote) (hBetween : ¬mark <:+: between ++ mark.dropLast)
    (hAfter : ¬mark <:+: after) :
    blocks (before ++ (mark ++ between ++ mark) ++ after) = [content between] := by
  rw [← blocks_eq_singleton (not_infix_append_dropLast hBefore hLast) hBetween hAfter]
  simp only [List.append_assoc]

end Composer.Fence
