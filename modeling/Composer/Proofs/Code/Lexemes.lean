import Composer.Code.Token

/-!
Pattern code read place by place. At each place there is a literal, a comment, or one character of
plain code; the tokens are these, with plain characters in a row taken together. What is found among
the tokens apart from plain code can so be followed by induction on the text without looking at how
far a run of plain code goes (`Token.scan_induction`, `Token.filterMap_tokens_cons`).
-/

namespace Composer.Token

/-- Whether a comment of either kind begins at the start of a text. -/
def opensComment : Text → Bool
  | '/' :: '/' :: _ => true
  | '/' :: '*' :: _ => true
  | _ => false

theorem opensComment_cons_iff (c : Char) (t : Text) :
    opensComment (c :: t) ↔ c = '/' ∧ (t.head? = some '/' ∨ t.head? = some '*') := by
  constructor
  · intro h
    unfold opensComment at h
    split at h
    · next hText => cases hText; exact ⟨rfl, .inl rfl⟩
    · next hText => cases hText; exact ⟨rfl, .inr rfl⟩
    · exact absurd h (by decide)
  · rintro ⟨rfl, hNext⟩
    cases t with
    | nil => simp at hNext
    | cons d t =>
        rcases hNext with hNext | hNext <;>
          · obtain rfl := Option.some.inj hNext
            rfl

theorem isQuote_of_opensComment {c : Char} {t : Text} (h : opensComment (c :: t)) :
    isQuote c = false := by
  obtain ⟨rfl, -⟩ := (opensComment_cons_iff c t).1 h
  decide

/-- A character of plain code: neither a literal nor a comment begins with it. -/
def isPlain (c : Char) (t : Text) : Bool := !isQuote c && !opensComment (c :: t)

theorem plainCode_cons (c : Char) (t : Text) :
    plainCode (c :: t) =
      if isPlain c t then (c :: (plainCode t).1, (plainCode t).2) else ([], c :: t) := by
  cases hComment : opensComment (c :: t) with
  | true =>
      have hPlain : isPlain c t = false := by simp [isPlain, hComment]
      obtain ⟨rfl, hNext⟩ := (opensComment_cons_iff c t).1 hComment
      obtain ⟨d, t, rfl⟩ : ∃ d u, t = d :: u := by cases t <;> simp_all
      rw [hPlain]
      rcases hNext with hNext | hNext <;>
        · obtain rfl := Option.some.inj hNext
          rfl
  | false =>
      have hLine : ∀ u, c = '/' → t = '/' :: u → False := by
        rintro u rfl rfl
        exact absurd hComment (by simp [opensComment])
      have hBlock : ∀ u, c = '/' → t = '*' :: u → False := by
        rintro u rfl rfl
        exact absurd hComment (by simp [opensComment])
      rw [plainCode.eq_4 c t hLine hBlock]
      cases hQuote : isQuote c <;> simp [isPlain, hQuote, hComment]

theorem first_of_isQuote {c : Char} (h : isQuote c) (t : Text) :
    first c t =
      (literal ⟨c, (literalBody c t).1, (literalBody c t).2.1⟩, (literalBody c t).2.2) := by
  unfold first
  rw [if_pos h]

/-- Where a comment begins, the first token is one. -/
theorem isComment_first {c : Char} {t : Text} (h : opensComment (c :: t)) :
    (first c t).1.isComment := by
  unfold first
  rw [if_neg (by simp [isQuote_of_opensComment h])]
  obtain ⟨rfl, hNext⟩ := (opensComment_cons_iff c t).1 h
  obtain ⟨d, t, rfl⟩ : ∃ d u, t = d :: u := by cases t <;> simp_all
  rcases hNext with hNext | hNext <;>
    · obtain rfl := Option.some.inj hNext
      rfl

theorem first_of_isPlain {c : Char} {t : Text} (h : isPlain c t) :
    first c t = (code (c :: (plainCode t).1), (plainCode t).2) := by
  simp only [isPlain, Bool.and_eq_true, Bool.not_eq_true'] at h
  obtain ⟨hQuote, hComment⟩ := h
  unfold first
  rw [if_neg (by simp [hQuote])]
  split
  · exact absurd hComment (by simp [opensComment])
  · exact absurd hComment (by simp [opensComment])
  · rfl

/-- The tokens of a text: a run of plain code at its start, as far as there is one, and what
follows it. -/
theorem tokens_eq_plainCode (t : Text) :
    tokens t =
      (if (plainCode t).1.isEmpty then [] else [code (plainCode t).1]) ++
        tokens (plainCode t).2 := by
  cases t with
  | nil => rfl
  | cons c t =>
      rw [plainCode_cons]
      cases hPlain : isPlain c t with
      | false => rfl
      | true =>
          rw [tokens_cons, first_of_isPlain hPlain]
          rfl

/-- What is picked from the tokens, but never from plain code, is not changed by a plain character
at the start. -/
theorem filterMap_tokens_cons {β : Type} {pick : Token → Option β}
    (hCode : ∀ body, pick (code body) = none) {c : Char} {t : Text} (h : isPlain c t) :
    (tokens (c :: t)).filterMap pick = (tokens t).filterMap pick := by
  rw [tokens_cons, first_of_isPlain h, tokens_eq_plainCode t]
  cases (plainCode t).1 <;> simp [hCode]

/-- Every text is taken apart from its start by literals, comments and plain characters. -/
@[elab_as_elim]
theorem scan_induction {motive : Text → Prop} (t : Text) (nil : motive [])
    (literal : ∀ c t, isQuote c → motive (literalBody c t).2.2 → motive (c :: t))
    (comment : ∀ c t, opensComment (c :: t) → motive (first c t).2 → motive (c :: t))
    (plain : ∀ c t, isPlain c t → motive t → motive (c :: t)) : motive t := by
  induction hLength : t.length using Nat.strongRecOn generalizing t with
  | ind n ih =>
      subst hLength
      cases t with
      | nil => exact nil
      | cons c t =>
          have hRest := ih _ (length_first_lt c t) (first c t).2 rfl
          cases hQuote : isQuote c with
          | true =>
              rw [first_of_isQuote hQuote] at hRest
              exact literal c t hQuote hRest
          | false =>
              cases hComment : opensComment (c :: t) with
              | true => exact comment c t hComment hRest
              | false =>
                  have hPlain : isPlain c t := by simp [isPlain, hQuote, hComment]
                  exact plain c t hPlain (ih _ (Nat.lt_succ_self _) t rfl)

end Composer.Token

namespace Composer.Text

theorem withoutComments_nil : withoutComments [] = [] := by
  rw [withoutComments, Token.tokens_nil]
  rfl

theorem withoutComments_cons (c : Char) (t : Text) :
    withoutComments (c :: t) =
      (if (Token.first c t).1.isComment then [] else (Token.first c t).1.source) ++
        withoutComments (Token.first c t).2 := by
  rw [withoutComments, Token.tokens_cons]
  cases hComment : (Token.first c t).1.isComment <;> simp [withoutComments, hComment]

end Composer.Text
