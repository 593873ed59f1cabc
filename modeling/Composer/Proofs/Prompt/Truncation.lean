import Composer.Prompt.History

/-!
The part of a conversation that is shown. A limit of at least one leaves as many messages as fit,
the first of all and the most recent. There is only one such part, so limits that are applied one
after another leave what the smallest of them leaves.
-/

namespace Composer.History

/-- What a limit leaves of a conversation: as many messages as fit, the first of them that of the
conversation, and the others its last ones. -/
structure Shortens (limit : Nat) (chat kept : List ChatMessage) : Prop where
  length_eq : kept.length = min chat.length limit
  head?_eq : kept.head? = chat.head?
  recent : kept.tail <:+ chat.tail

section
variable {limit larger : Nat} {chat middle kept other : List ChatMessage}

theorem shortens_truncate (hLimit : 1 ≤ limit) (chat : List ChatMessage) :
    Shortens limit chat (truncate limit chat) := by
  unfold truncate
  split
  · next hFits => exact ⟨(Nat.min_eq_left hFits).symm, rfl, List.suffix_rfl⟩
  · next hLong =>
      cases chat with
      | nil => exact absurd (Nat.zero_le limit) hLong
      | cons first rest =>
          refine ⟨?_, rfl, List.drop_suffix _ rest⟩
          simp only [List.length_cons, List.length_drop] at hLong ⊢
          omega

namespace Shortens

/-- The messages that are left stand in the conversation in this order, at places of their own. -/
theorem sublist (h : Shortens limit chat kept) : List.Sublist kept chat := by
  cases kept with
  | nil => exact List.nil_sublist chat
  | cons first recent =>
      obtain ⟨rest, rfl⟩ := List.head?_eq_some_iff.1 h.head?_eq.symm
      exact List.Sublist.cons_cons first h.recent.sublist

/-- A limit leaves one part only: of the last messages of a conversation there are no two lists of
the same length. -/
theorem unique (hKept : Shortens limit chat kept) (hOther : Shortens limit chat other) :
    kept = other := by
  have hLength : kept.length = other.length := hKept.length_eq.trans hOther.length_eq.symm
  have hHead : kept.head? = other.head? := hKept.head?_eq.trans hOther.head?_eq.symm
  have hTail : kept.tail = other.tail := by
    have hTails : kept.tail.length = other.tail.length := by
      rw [List.length_tail, List.length_tail, hLength]
    have hSuffix := List.suffix_of_suffix_length_le hKept.recent hOther.recent (Nat.le_of_eq hTails)
    exact hSuffix.eq_of_length hTails
  cases kept with
  | nil => exact (List.head?_eq_none_iff.1 hHead.symm).symm
  | cons first recent =>
      obtain ⟨rest, rfl⟩ := List.head?_eq_some_iff.1 hHead.symm
      exact congrArg (first :: ·) hTail

/-- A smaller limit after a larger one leaves what it leaves of the whole conversation. -/
theorem trans (hLarger : Shortens larger chat middle) (hKept : Shortens limit middle kept)
    (hLimits : limit ≤ larger) : Shortens limit chat kept where
  length_eq := by
    rw [hKept.length_eq, hLarger.length_eq, Nat.min_assoc, Nat.min_eq_right hLimits]
  head?_eq := hKept.head?_eq.trans hLarger.head?_eq
  recent := hKept.recent.trans hLarger.recent

end Shortens

end

/-- A limit of at least one leaves as many messages of a conversation as fit, in their order and
none of them twice: the first one and the last ones. A larger limit that is applied before changes
nothing. -/
theorem truncate_keeps_first_and_recent (limit : Nat) (chat : List ChatMessage)
    (hLimit : 1 ≤ limit) :
    (truncate limit chat).length = min chat.length limit ∧
    List.Sublist (truncate limit chat) chat ∧
    (truncate limit chat).head? = chat.head? ∧
    (truncate limit chat).tail <:+ chat.tail ∧
    ∀ larger, limit ≤ larger → truncate limit (truncate larger chat) = truncate limit chat := by
  have hKept := shortens_truncate hLimit chat
  refine ⟨hKept.length_eq, hKept.sublist, hKept.head?_eq, hKept.recent, fun larger hLarger => ?_⟩
  have hFirst := shortens_truncate (Nat.le_trans hLimit hLarger) chat
  have hTwice := hFirst.trans (shortens_truncate hLimit (truncate larger chat)) hLarger
  exact hTwice.unique hKept

/-- A conversation of which a limit of three leaves the first message and the last two. -/
def tempoTalk : List ChatMessage :=
  [⟨.user, "slow dub", none⟩, ⟨.assistant, "done", some "setcpm(70)"⟩, ⟨.user, "faster", none⟩,
    ⟨.assistant, "done", some "setcpm(90)"⟩, ⟨.user, "slow dub", none⟩]

theorem truncate_tempoTalk :
    1 ≤ 3 ∧ (truncate 3 tempoTalk).length = min tempoTalk.length 3 ∧
    List.Sublist (truncate 3 tempoTalk) tempoTalk ∧
    (truncate 3 tempoTalk).head? = tempoTalk.head? ∧
    (truncate 3 tempoTalk).tail <:+ tempoTalk.tail ∧
    ∀ larger, 3 ≤ larger → truncate 3 (truncate larger tempoTalk) = truncate 3 tempoTalk :=
  ⟨by decide, truncate_keeps_first_and_recent 3 tempoTalk (by decide)⟩

end Composer.History
