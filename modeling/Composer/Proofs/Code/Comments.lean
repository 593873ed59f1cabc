import Composer.Code.Validation
import Composer.Proofs.Code.Lexemes

/-!
Code without its comments. What stands on the two sides of a comment comes together when it is left
out, but that never opens another comment and never moves the end of a literal: there are no
comments left, and the literals are those of the code. So the findings about methods and about the
choice groups in literals are the same for code and for code without comments.
-/

namespace Composer

namespace Token

/-- The literal that a token is, if it is one. -/
def literal? : Token → Option StringLiteral
  | literal l => some l
  | _ => none

theorem map_snd_literalsFrom (position : Nat) (ts : List Token) :
    (literalsFrom position ts).map Prod.snd = ts.filterMap literal? := by
  induction ts generalizing position with
  | nil => rfl
  | cons t ts ih => cases t <;> simp [literalsFrom, literal?, List.filterMap_cons, ih]

/-- A character is no backslash that neither ends a text nor escapes the next. -/
theorem ne_backslash {c : Char} {t : Text} (hAlone : c = '\\' → t = [] → False)
    (hEscape : ∀ d u, c = '\\' → t = d :: u → False) : c ≠ '\\' := by
  intro hc
  cases t with
  | nil => exact hAlone hc rfl
  | cons d u => exact hEscape d u hc rfl

/-- A character that escapes nothing closes the literal, breaks it off, or belongs to it. -/
theorem literalBody_cons {quote c : Char} (h : c ≠ '\\') (t : Text) :
    literalBody quote (c :: t) =
      if c = quote then ([], true, t)
      else if c = Text.lineFeed ∧ quote ≠ backquote then ([], false, c :: t)
      else (c :: (literalBody quote t).1, (literalBody quote t).2) := by
  rw [literalBody.eq_4 quote c t (fun hc _ => h hc) (fun _ _ hc _ => h hc)]

/-- A literal that is not closed ends with the text or, between quotation marks, before a line
feed. -/
theorem literalBody_of_unclosed {quote : Char} {t : Text} (h : (literalBody quote t).2.1 = false) :
    (literalBody quote t).2.2 = [] ∨
      quote ≠ backquote ∧ ∃ rest, (literalBody quote t).2.2 = Text.lineFeed :: rest := by
  fun_induction literalBody quote t with
  | case1 => exact .inl rfl
  | case2 => exact .inl rfl
  | case3 c t body closed rest hRest ih => simp_all
  | case4 => simp at h
  | case5 c t _ _ _ hLine => exact .inr ⟨hLine.2, t, by rw [hLine.1]⟩
  | case6 c t => simp_all

/-- The end of a literal depends on the literal alone when it is closed, and else on the character
that follows it. -/
theorem literalBody_source {quote : Char} {t u : Text}
    (h : (literalBody quote t).2.1 = false → u.head? = (literalBody quote t).2.2.head?) :
    literalBody quote
        ((literalBody quote t).1 ++ (if (literalBody quote t).2.1 then [quote] else []) ++ u) =
      ((literalBody quote t).1, (literalBody quote t).2.1, u) := by
  fun_induction literalBody quote t with
  | case1 =>
      have hEnd : u = [] := by simpa using h
      simp [hEnd, literalBody]
  | case2 =>
      have hEnd : u = [] := by simpa using h
      simp [hEnd, literalBody]
  | case3 c t body closed rest hRest ih =>
      rw [hRest] at ih
      simp only [List.cons_append, literalBody, ih h]
  | case4 t hAlone hEscape =>
      simp [literalBody_cons (ne_backslash hAlone hEscape)]
  | case5 c t hAlone hEscape hQuote hLine =>
      obtain ⟨rest, hRest⟩ : ∃ rest, u = c :: rest := List.head?_eq_some_iff.1 (h rfl)
      simp only [hRest, Bool.false_eq_true, if_false, List.append_nil, List.nil_append]
      rw [literalBody_cons (ne_backslash hAlone hEscape), if_neg hQuote, if_pos hLine]
  | case6 c t hAlone hEscape hQuote hLine body closed rest hRest ih =>
      rw [hRest] at ih
      simp only [List.cons_append, literalBody_cons (ne_backslash hAlone hEscape), ih h]
      rw [if_neg hQuote, if_neg hLine]

end Token

namespace Text

open Token

theorem withoutComments_of_isPlain {c : Char} {t : Text} (h : isPlain c t) :
    withoutComments (c :: t) = c :: withoutComments t := by
  have hRun : withoutComments t = (plainCode t).1 ++ withoutComments (plainCode t).2 := by
    rw [withoutComments, tokens_eq_plainCode]
    cases hBody : (plainCode t).1 <;> simp [withoutComments, isComment, source]
  rw [withoutComments_cons, first_of_isPlain h, hRun]
  rfl

/-- What a text begins with stays, unless it may be a comment. -/
theorem head?_withoutComments {t : Text} (h : t.head? ≠ some '/') :
    t.withoutComments.head? = t.head? := by
  cases t with
  | nil => rw [withoutComments_nil]
  | cons c t =>
      cases hQuote : isQuote c with
      | true =>
          rw [withoutComments_cons, first_of_isQuote hQuote]
          rfl
      | false =>
          have hComment : opensComment (c :: t) = false := by
            rw [← Bool.not_eq_true]
            intro hComment
            obtain ⟨rfl, -⟩ := (opensComment_cons_iff c t).1 hComment
            exact h rfl
          rw [withoutComments_of_isPlain (by simp [isPlain, hQuote, hComment])]
          rfl

/-- A plain character opens no comment with what follows it when comments are left out. -/
theorem isPlain_withoutComments {c : Char} {t : Text} (h : isPlain c t) :
    isPlain c t.withoutComments := by
  simp only [isPlain, Bool.and_eq_true, Bool.not_eq_true'] at h ⊢
  refine ⟨h.1, ?_⟩
  rw [← Bool.not_eq_true, opensComment_cons_iff]
  rintro ⟨rfl, hNext⟩
  have hBefore : ¬(t.head? = some '/' ∨ t.head? = some '*') := fun hNext =>
    absurd h.2 (by simp [(opensComment_cons_iff '/' t).2 ⟨rfl, hNext⟩])
  rw [head?_withoutComments (fun hSlash => hBefore (.inl hSlash))] at hNext
  exact hBefore hNext

/-- The tokens of code without comments are those of the code that are none, as far as they are not
plain code: a literal ends where it did, and no comment begins where there was none. -/
theorem filterMap_tokens_withoutComments {β : Type} {pick : Token → Option β}
    (hCode : ∀ body, pick (code body) = none) (t : Text) :
    (tokens t.withoutComments).filterMap pick =
      ((tokens t).filter (!·.isComment)).filterMap pick := by
  induction t using scan_induction with
  | nil => rw [withoutComments_nil, tokens_nil]; rfl
  | literal c t hQuote ih =>
      have hEnd : (literalBody c t).2.1 = false →
          (literalBody c t).2.2.withoutComments.head? = (literalBody c t).2.2.head? := by
        intro hUnclosed
        refine head?_withoutComments ?_
        rcases literalBody_of_unclosed hUnclosed with hRest | ⟨-, rest, hRest⟩
        · simp [hRest]
        · simp [hRest, lineFeed]
      have hBare : withoutComments (c :: t) =
          c :: ((literalBody c t).1 ++ (if (literalBody c t).2.1 then [c] else []) ++
            (literalBody c t).2.2.withoutComments) := by
        rw [withoutComments_cons, first_of_isQuote hQuote]
        simp [isComment, source, StringLiteral.source]
      rw [hBare, tokens_cons, first_of_isQuote hQuote, literalBody_source hEnd, tokens_cons,
        first_of_isQuote hQuote]
      simp [isComment, List.filterMap_cons, ih]
  | comment c t hComment ih =>
      have hFirst := isComment_first hComment
      rw [withoutComments_cons, tokens_cons]
      simp [hFirst, ih]
  | plain c t hPlain ih =>
      rw [withoutComments_of_isPlain hPlain,
        filterMap_tokens_cons hCode (isPlain_withoutComments hPlain), ih, List.filterMap_filter,
        List.filterMap_filter]
      exact (filterMap_tokens_cons (fun body => by simp [isComment, hCode]) hPlain).symm

theorem literals_eq (t : Text) : t.literals = (tokens t).filterMap literal? :=
  map_snd_literalsFrom 0 (tokens t)

theorem literals_withoutComments (t : Text) : t.withoutComments.literals = t.literals := by
  rw [literals_eq, literals_eq, filterMap_tokens_withoutComments (fun _ => rfl),
    List.filterMap_filter]
  congr 1
  funext token
  cases token <;> rfl

/-- Leaving comments out leaves none, and brings none about. -/
theorem isComment_eq_false_of_mem {t : Text} {token : Token}
    (h : token ∈ tokens t.withoutComments) : token.isComment = false := by
  have hNone : (tokens t.withoutComments).filterMap (Option.guard isComment) = [] := by
    rw [filterMap_tokens_withoutComments (fun _ => rfl), List.filterMap_eq_filter,
      List.filter_filter]
    exact List.filter_eq_nil_iff.2 fun token _ => by simp
  rw [List.filterMap_eq_filter, List.filter_eq_nil_iff] at hNone
  simpa using hNone token h

theorem withoutComments_withoutComments (t : Text) :
    t.withoutComments.withoutComments = t.withoutComments := by
  have hAll : (tokens t.withoutComments).filter (!·.isComment) = tokens t.withoutComments :=
    List.filter_eq_self.2 fun token h => by simp [isComment_eq_false_of_mem h]
  rw [withoutComments, hAll, source_tokens]

end Text

/-- Whether an issue is about the choice groups in a literal. -/
def Issue.isAboutGroups : Issue → Bool
  | unbalancedGroups .. => true
  | _ => false

namespace Validation

/-- The issues of pattern code that are about the choice groups in its literals. -/
def groupIssues (code : Text) : List Issue := (balanceIssues code).filter (·.isAboutGroups)

/-- What is found about methods is found in the code without comments. -/
theorem methodIssues_congr {s t : Text} (h : s.withoutComments = t.withoutComments) :
    methodIssues s = methodIssues t := by
  simp only [methodIssues, Measure.unsupportedMethods, Measure.callsMethodOnString, h]

/-- What is found about choice groups is found in the literals. -/
theorem groupIssues_congr {s t : Text} (h : s.literals = t.literals) :
    groupIssues s = groupIssues t := by
  have hGroups (code : Text) : groupIssues code = (Measure.unbalancedGroups code).map
      fun found => .unbalancedGroups found.2.1 found.2.2 found.1 := by
    unfold groupIssues balanceIssues
    rw [List.filter_append, List.filter_eq_nil_iff.2, List.filter_eq_self.2, List.nil_append]
    · exact List.forall_mem_map.2 fun _ _ => rfl
    · exact List.forall_mem_map.2 fun _ _ => Bool.false_ne_true
  simp only [hGroups, Measure.unbalancedGroups, h]

end Validation

/-- Code without its comments has none left, so that leaving them out again changes nothing, and has
the literals of the code in the same order. The issues about methods and about choice groups are
those of the code, and so the same for all code that differs in its comments only. -/
theorem Text.withoutComments_keeps (code : Text) :
    (∀ token ∈ Token.tokens code.withoutComments, token.isComment = false) ∧
    code.withoutComments.withoutComments = code.withoutComments ∧
    code.withoutComments.literals = code.literals ∧
    Validation.methodIssues code.withoutComments = Validation.methodIssues code ∧
    Validation.groupIssues code.withoutComments = Validation.groupIssues code ∧
    ∀ other : Text, other.withoutComments = code.withoutComments →
      Validation.methodIssues other = Validation.methodIssues code ∧
      Validation.groupIssues other = Validation.groupIssues code := by
  refine ⟨fun token => isComment_eq_false_of_mem, withoutComments_withoutComments code,
    literals_withoutComments code, ?_, ?_, ?_⟩
  · exact Validation.methodIssues_congr (withoutComments_withoutComments code)
  · exact Validation.groupIssues_congr (literals_withoutComments code)
  · intro other hBare
    refine ⟨Validation.methodIssues_congr hBare, Validation.groupIssues_congr ?_⟩
    calc other.literals
        _ = other.withoutComments.literals := (literals_withoutComments other).symm
        _ = code.withoutComments.literals := by rw [hBare]
        _ = code.literals := literals_withoutComments code

end Composer
