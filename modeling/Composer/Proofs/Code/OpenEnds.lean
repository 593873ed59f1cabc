import Composer.Proofs.Code.Comments
import Composer.Proofs.Code.Continuation

/-!
Comments and literals of code that goes on. Code may break off inside a literal or a comment, and
then what follows belongs to that; what is complete stays as it is. So the code without its comments
goes on too (`Text.prefix_withoutComments`), and a literal that is terminated keeps its place
(`Text.mem_locatedLiterals_append`), which is all that the rules on methods look at.
-/

namespace Composer

namespace Token

/-! ### Tokens that something follows -/

theorem prefix_literalBody (quote : Char) (t more : Text) :
    (literalBody quote t).1 <+: (literalBody quote (t ++ more)).1 := by
  fun_induction literalBody quote t with
  | case1 => exact List.nil_prefix
  | case2 =>
      cases more with
      | nil => exact List.prefix_rfl
      | cons c more => exact List.cons_prefix_cons.2 ⟨rfl, List.nil_prefix⟩
  | case3 c t body closed rest hRest ih =>
      rw [hRest] at ih
      exact List.cons_prefix_cons.2 ⟨rfl, List.cons_prefix_cons.2 ⟨rfl, ih⟩⟩
  | case4 => exact List.nil_prefix
  | case5 => exact List.nil_prefix
  | case6 c t hAlone hEscape hQuote hLine body closed rest hRest ih =>
      rw [hRest] at ih
      rw [List.cons_append, literalBody_cons (ne_backslash hAlone hEscape), if_neg hQuote,
        if_neg hLine]
      exact List.cons_prefix_cons.2 ⟨rfl, ih⟩

/-- A literal that is closed, or that something follows, has ended. -/
theorem literalBody_append_of_ended {quote : Char} {t : Text}
    (h : (literalBody quote t).2.1 = true ∨ (literalBody quote t).2.2 ≠ []) (more : Text) :
    literalBody quote (t ++ more) =
      ((literalBody quote t).1, (literalBody quote t).2.1, (literalBody quote t).2.2 ++ more) := by
  fun_induction literalBody quote t with
  | case1 => simp at h
  | case2 => simp at h
  | case3 c t body closed rest hRest ih =>
      rw [hRest] at ih
      simp only [List.cons_append, literalBody, ih h]
  | case4 t hAlone hEscape =>
      rw [List.cons_append, literalBody_cons (ne_backslash hAlone hEscape), if_pos rfl]
  | case5 c t hAlone hEscape hQuote hLine =>
      rw [List.cons_append, literalBody_cons (ne_backslash hAlone hEscape), if_neg hQuote,
        if_pos hLine]
  | case6 c t hAlone hEscape hQuote hLine body closed rest hRest ih =>
      rw [hRest] at ih
      rw [List.cons_append, literalBody_cons (ne_backslash hAlone hEscape), if_neg hQuote,
        if_neg hLine, ih h]

theorem lineComment_append_of_ended {t : Text} (h : (lineComment t).2 ≠ []) (more : Text) :
    lineComment (t ++ more) = ((lineComment t).1, (lineComment t).2 ++ more) := by
  fun_induction lineComment t with
  | case1 => exact absurd rfl h
  | case2 t => simp [lineComment]
  | case3 c t hFeed body rest hRest ih =>
      rw [hRest] at ih
      simp only [List.cons_append, lineComment, if_neg hFeed, ih h]

theorem blockComment_append_of_ended {t : Text} (h : (blockComment t).2 ≠ []) (more : Text) :
    blockComment (t ++ more) = ((blockComment t).1, (blockComment t).2 ++ more) := by
  fun_induction blockComment t with
  | case1 => exact absurd rfl h
  | case2 t => rfl
  | case3 c t hEnd body rest hRest ih =>
      rw [hRest] at ih
      have hGoesOn : ∀ u, c = '*' → t ++ more = '/' :: u → False := by
        intro u hc hText
        cases t with
        | nil =>
            obtain ⟨-, rfl⟩ := Prod.mk.inj hRest
            exact h rfl
        | cons d t => exact hEnd t hc (by rw [(List.cons.inj hText).1])
      rw [List.cons_append, blockComment.eq_3 c (t ++ more) hGoesOn, ih h]

theorem opensComment_append {t : Text} (h : opensComment t) (more : Text) :
    opensComment (t ++ more) := by
  cases t with
  | nil => exact absurd h (by decide)
  | cons c t =>
      obtain ⟨rfl, hNext⟩ := (opensComment_cons_iff c t).1 h
      refine (opensComment_cons_iff '/' (t ++ more)).2 ⟨rfl, ?_⟩
      cases t with
      | nil => simp at hNext
      | cons d t => exact hNext

/-- A comment that something follows has ended. -/
theorem first_append_of_opensComment {c : Char} {t : Text} (hComment : opensComment (c :: t))
    (hRest : (first c t).2 ≠ []) (more : Text) :
    first c (t ++ more) = ((first c t).1, (first c t).2 ++ more) := by
  obtain ⟨rfl, hNext⟩ := (opensComment_cons_iff c t).1 hComment
  obtain ⟨d, u, rfl⟩ : ∃ d u, t = d :: u := by cases t <;> simp_all
  rcases hNext with hNext | hNext
  · obtain rfl := Option.some.inj hNext
    have hFirst (v : Text) : first '/' ('/' :: v) =
        (comment ('/' :: '/' :: (lineComment v).1), (lineComment v).2) := rfl
    rw [hFirst] at hRest
    rw [List.cons_append, hFirst, hFirst, lineComment_append_of_ended hRest]
  · obtain rfl := Option.some.inj hNext
    have hFirst (v : Text) : first '/' ('*' :: v) =
        (comment ('/' :: '*' :: (blockComment v).1), (blockComment v).2) := rfl
    rw [hFirst] at hRest
    rw [List.cons_append, hFirst, hFirst, blockComment_append_of_ended hRest]

theorem isPlain_append {c : Char} {t : Text} (h : isPlain c t) {more : Text}
    (hNext : t = [] → more.head? ≠ some '/' ∧ more.head? ≠ some '*') :
    isPlain c (t ++ more) := by
  simp only [isPlain, Bool.and_eq_true, Bool.not_eq_true'] at h ⊢
  refine ⟨h.1, ?_⟩
  rw [← Bool.not_eq_true, opensComment_cons_iff]
  rintro ⟨rfl, hOpens⟩
  cases t with
  | nil => exact hOpens.elim (hNext rfl).1 (hNext rfl).2
  | cons d t => exact absurd h.2 (by simp [(opensComment_cons_iff '/' (d :: t)).2 ⟨rfl, hOpens⟩])

/-- A plain character takes up one place. -/
theorem literalsFrom_of_isPlain {c : Char} {t : Text} (h : isPlain c t) (position : Nat) :
    literalsFrom position (tokens (c :: t)) = literalsFrom (position + 1) (tokens t) := by
  rw [tokens_cons, first_of_isPlain h, tokens_eq_plainCode t]
  cases hRun : (plainCode t).1 with
  | nil => simp [literalsFrom, source]
  | cons d run =>
      simp only [List.isEmpty_cons, Bool.false_eq_true, if_false, List.singleton_append,
        literalsFrom, source, List.length_cons]
      congr 1
      omega

end Token

namespace Text

open Token

/-- Code without its comments goes on when more lines follow. -/
theorem prefix_withoutComments (t more : Text) :
    t.withoutComments <+: (t ++ lineFeed :: more).withoutComments := by
  induction t using scan_induction with
  | nil =>
      rw [withoutComments_nil]
      exact List.nil_prefix
  | literal c t hQuote ih =>
      rw [List.cons_append, withoutComments_cons, withoutComments_cons, first_of_isQuote hQuote,
        first_of_isQuote hQuote]
      simp only [isComment, Bool.false_eq_true, if_false, source, StringLiteral.source]
      by_cases hEnded : (literalBody c t).2.1 = true ∨ (literalBody c t).2.2 ≠ []
      · rw [literalBody_append_of_ended hEnded]
        exact (List.prefix_append_right_inj _).2 ih
      · -- the literal goes on, and there is nothing behind it yet
        obtain ⟨hOpen, hLast⟩ := not_or.1 hEnded
        rw [not_not.1 hLast, withoutComments_nil, if_neg hOpen, List.append_nil, List.append_nil,
          List.cons_append, List.cons_append, List.append_assoc]
        exact List.cons_prefix_cons.2
          ⟨rfl, (prefix_literalBody c t _).trans (List.prefix_append _ _)⟩
  | comment c t hComment ih =>
      have hLonger : opensComment (c :: (t ++ lineFeed :: more)) :=
        opensComment_append hComment (lineFeed :: more)
      rw [List.cons_append, withoutComments_cons, withoutComments_cons,
        if_pos (isComment_first hComment), if_pos (isComment_first hLonger), List.nil_append,
        List.nil_append]
      by_cases hLast : (first c t).2 = []
      · rw [hLast, withoutComments_nil]
        exact List.nil_prefix
      · rw [first_append_of_opensComment hComment hLast]
        exact ih
  | plain c t hPlain ih =>
      have hLonger : isPlain c (t ++ lineFeed :: more) :=
        isPlain_append hPlain fun _ => ⟨by simp [lineFeed], by simp [lineFeed]⟩
      rw [List.cons_append, withoutComments_of_isPlain hPlain, withoutComments_of_isPlain hLonger]
      exact List.cons_prefix_cons.2 ⟨rfl, ih⟩

/-- A terminated literal is found at the same place when more text follows. -/
theorem mem_literalsFrom_append {l : StringLiteral} (hClosed : l.terminated) {position start : Nat}
    {t : Text} (h : (position, l) ∈ literalsFrom start (tokens t)) (more : Text) :
    (position, l) ∈ literalsFrom start (tokens (t ++ more)) := by
  induction t using scan_induction generalizing start with
  | nil => simp [literalsFrom] at h
  | literal c t hQuote ih =>
      rw [tokens_cons, first_of_isQuote hQuote, literalsFrom, List.mem_cons] at h
      have hEnded : (literalBody c t).2.1 = true ∨ (literalBody c t).2.2 ≠ [] := by
        rcases h with hHere | hLater
        · obtain ⟨-, rfl⟩ := Prod.mk.inj hHere
          exact .inl hClosed
        · refine .inr fun hLast => ?_
          rw [hLast, tokens_nil] at hLater
          exact absurd hLater List.not_mem_nil
      rw [List.cons_append, tokens_cons, first_of_isQuote hQuote, literalBody_append_of_ended hEnded,
        literalsFrom, List.mem_cons]
      exact h.imp id ih
  | comment c t hComment ih =>
      have hSkip {u : Text} {token : Token} (hToken : token.isComment) :
          literalsFrom start (token :: tokens u) =
            literalsFrom (start + token.source.length) (tokens u) := by
        cases token with
        | code body => exact absurd hToken Bool.false_ne_true
        | comment body => rfl
        | literal l => exact absurd hToken Bool.false_ne_true
      have hFirst := isComment_first hComment
      rw [tokens_cons, hSkip hFirst] at h
      have hRest : (first c t).2 ≠ [] := by
        intro hLast
        rw [hLast, tokens_nil] at h
        exact absurd h List.not_mem_nil
      rw [List.cons_append, tokens_cons, first_append_of_opensComment hComment hRest, hSkip hFirst]
      exact ih h
  | plain c t hPlain ih =>
      rw [literalsFrom_of_isPlain hPlain] at h
      have hRest : t ≠ [] := by
        rintro rfl
        rw [tokens_nil] at h
        exact absurd h List.not_mem_nil
      rw [List.cons_append, literalsFrom_of_isPlain (isPlain_append hPlain fun hLast =>
        absurd hLast hRest)]
      exact ih h

end Text

namespace Measure

open Text

/-- The methods that are not supported are still called. -/
theorem unsupportedMethods_subset (code more : Text) :
    unsupportedMethods code ⊆ unsupportedMethods (code ++ lineFeed :: more) := by
  intro m hm
  obtain ⟨rest, hRest⟩ := prefix_withoutComments code more
  rw [unsupportedMethods, List.mem_filter] at hm ⊢
  rw [← hRest]
  refine ⟨hm.1, anywhere_append ?_ hm.2⟩
  exact fun t ht => Call.isSome_spacedMethodOf?_append ht rest

/-- A method that is called on a literal is still called on it. -/
theorem callsMethodOnString_append {code : Text} (h : callsMethodOnString code) (more : Text) :
    callsMethodOnString (code ++ lineFeed :: more) := by
  obtain ⟨rest, hRest⟩ := prefix_withoutComments code more
  unfold callsMethodOnString at h ⊢
  rw [List.any_eq_true] at h ⊢
  obtain ⟨⟨position, l⟩, hLiteral, hCalled⟩ := h
  simp only [Bool.and_eq_true] at hCalled
  obtain ⟨⟨hQuote, hClosed⟩, hChained⟩ := hCalled
  have hInside : position + l.source.length ≤ code.withoutComments.length := by
    by_contra hOutside
    rw [List.drop_eq_nil_of_le (Nat.le_of_lt (Nat.not_le.1 hOutside))] at hChained
    exact absurd hChained (by decide)
  refine ⟨(position, l), ?_, ?_⟩
  · rw [← hRest]
    exact mem_literalsFrom_append hClosed hLiteral rest
  · simp only [Bool.and_eq_true]
    refine ⟨⟨hQuote, hClosed⟩, ?_⟩
    rw [← hRest, List.drop_append_of_le_length hInside]
    exact Call.isSome_chainedMethod?_append hChained rest

end Measure

end Composer
