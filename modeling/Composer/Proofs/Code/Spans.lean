import Composer.Proofs.Code.Comments
import Mathlib.Data.List.Chain

/-!
Tokens where they stand. The spans of the tokens follow one another without a gap from the beginning
of the code to its end, and in each of them stands the lexeme of its token. Where a token ends
depends on the characters alone: plain code goes on to a quotation mark or a comment, a comment to
its end, and a literal to the first mark or line feed that is not escaped. Whether a character is
escaped is read off the backslashes right before it, not off a scan from the opening mark.
-/

namespace Composer

/-! ### Escaped characters -/

namespace Text

/-- The number of backslashes that a text ends with. -/
def trailingBackslashes (t : Text) : Nat := (t.reverse.takeWhile (· == '\\')).length

/-- Whether the character behind a text is escaped. -/
def escapesNext (t : Text) : Bool := t.trailingBackslashes % 2 == 1

/-- A text has the character at a place where it is not escaped. -/
def Unescaped (x : Char) (t : Text) : Prop :=
  ∃ before after, t = before ++ x :: after ∧ escapesNext before = false

theorem trailingBackslashes_le (t : Text) : t.trailingBackslashes ≤ t.length := by
  have hLength := (List.takeWhile_sublist (l := t.reverse) (· == '\\')).length_le
  rwa [List.length_reverse] at hLength

theorem trailingBackslashes_cons (c : Char) (t : Text) :
    trailingBackslashes (c :: t) =
      if c = '\\' ∧ t.trailingBackslashes = t.length then t.length + 1
      else t.trailingBackslashes := by
  unfold trailingBackslashes
  rw [List.reverse_cons, List.takeWhile_append, List.length_reverse]
  by_cases hAll : (t.reverse.takeWhile (· == '\\')).length = t.length
  · by_cases hc : c = '\\'
    · simp [hAll, hc]
    · simp [hAll, hc]
  · rw [if_neg hAll, if_neg fun h => hAll h.2]

theorem escapesNext_cons {c : Char} (hc : c ≠ '\\') (t : Text) :
    escapesNext (c :: t) = escapesNext t := by
  rw [escapesNext, trailingBackslashes_cons, if_neg fun h => hc h.1]
  rfl

/-- A backslash and the character that it escapes have no part in what is escaped after them. -/
theorem escapesNext_pair (c : Char) (t : Text) : escapesNext ('\\' :: c :: t) = escapesNext t := by
  have hBound := trailingBackslashes_le t
  simp only [escapesNext, trailingBackslashes_cons, List.length_cons, true_and]
  by_cases hRun : c = '\\' ∧ t.trailingBackslashes = t.length
  · rw [if_pos hRun, if_pos rfl, hRun.2]
    exact congrArg (· == 1) (Nat.add_mod_right t.length 2)
  · rw [if_neg hRun, if_neg (by omega)]

theorem not_unescaped_nil (x : Char) : ¬Unescaped x [] := by
  rintro ⟨before, after, hText, -⟩
  exact absurd hText (by simp)

theorem unescaped_cons_iff {x c : Char} (hc : c ≠ '\\') (t : Text) :
    Unescaped x (c :: t) ↔ x = c ∨ Unescaped x t := by
  constructor
  · rintro ⟨before, after, hText, hBefore⟩
    cases before with
    | nil => exact .inl (List.cons.inj hText).1.symm
    | cons d before =>
        obtain ⟨rfl, hRest⟩ := List.cons.inj hText
        rw [escapesNext_cons hc] at hBefore
        exact .inr ⟨before, after, hRest, hBefore⟩
  · rintro (rfl | ⟨before, after, rfl, hBefore⟩)
    · exact ⟨[], t, rfl, rfl⟩
    · exact ⟨c :: before, after, rfl, (escapesNext_cons hc before).trans hBefore⟩

/-- What stands unescaped behind a backslash stands behind the character that this escapes. -/
theorem unescaped_of_pair {x c : Char} (hx : x ≠ '\\') {t : Text}
    (h : Unescaped x ('\\' :: c :: t)) : Unescaped x t := by
  obtain ⟨before, after, hText, hBefore⟩ := h
  cases before with
  | nil => exact absurd (List.cons.inj hText).1.symm hx
  | cons d before =>
      obtain ⟨rfl, hRest⟩ := List.cons.inj hText
      cases before with
      | nil => exact absurd hBefore (by decide)
      | cons e before =>
          obtain ⟨rfl, hTail⟩ := List.cons.inj hRest
          rw [escapesNext_pair] at hBefore
          exact ⟨before, after, hTail, hBefore⟩

end Text

namespace StringLiteral

/-- The lexeme of a literal ends with a mark that closes it. -/
def IsClosed (l : StringLiteral) : Prop :=
  ∃ body : Text, l.source = l.quote :: body ++ [l.quote] ∧ body.escapesNext = false

/-- A literal as it may stand before `rest`. It holds neither its own mark nor, between quotation
marks, a line feed that is not escaped; it is terminated when such a mark closes it, and
unterminated when the text or, between quotation marks, the line ends before one does. -/
structure Delimited (l : StringLiteral) (rest : Text) : Prop where
  quoted : isQuote l.quote
  inside : ¬Text.Unescaped l.quote l.text
  onLine : l.quote ≠ backquote → ¬Text.Unescaped Text.lineFeed l.text
  terminated_iff : l.terminated = true ↔ l.IsClosed
  unterminated_iff : l.terminated = false ↔ ¬l.IsClosed ∧
    (rest = [] ∨
      l.quote ≠ backquote ∧ l.text.escapesNext = false ∧ rest.head? = some Text.lineFeed)

end StringLiteral

namespace Token

/-! ### Literals -/

theorem ne_backslash_of_isQuote {quote : Char} (h : isQuote quote) : quote ≠ '\\' := by
  rintro rfl
  exact absurd h (by decide)

/-- What ends a literal stands in its body only where it is escaped. -/
theorem not_unescaped_literalBody {quote x : Char} (hx : x ≠ '\\')
    (hStop : x = quote ∨ x = Text.lineFeed ∧ quote ≠ backquote) (t : Text) :
    ¬Text.Unescaped x (literalBody quote t).1 := by
  fun_induction literalBody quote t with
  | case1 => exact Text.not_unescaped_nil x
  | case2 =>
      rintro ⟨before, after, hText, -⟩
      rcases List.cons_eq_append_iff.1 hText with ⟨-, hHead⟩ | ⟨more, -, hTail⟩
      · exact hx (List.cons.inj hHead).1
      · exact absurd hTail (by simp)
  | case3 c t body closed rest hRest ih =>
      rw [hRest] at ih
      exact fun h => ih (Text.unescaped_of_pair hx h)
  | case4 => exact Text.not_unescaped_nil x
  | case5 => exact Text.not_unescaped_nil x
  | case6 c t hAlone hEscape hQuote hLine body closed rest hRest ih =>
      rw [hRest] at ih
      rw [Text.unescaped_cons_iff (ne_backslash hAlone hEscape)]
      rintro (rfl | hInside)
      · exact hStop.elim hQuote hLine
      · exact ih hInside

/-- The character that ends a literal is not escaped. -/
theorem escapesNext_literalBody {quote : Char} {t : Text}
    (h : (literalBody quote t).2.1 = true ∨ (literalBody quote t).2.2 ≠ []) :
    Text.escapesNext (literalBody quote t).1 = false := by
  fun_induction literalBody quote t with
  | case1 => simp at h
  | case2 => simp at h
  | case3 c t body closed rest hRest ih =>
      rw [hRest] at ih
      exact (Text.escapesNext_pair c body).trans (ih h)
  | case4 => rfl
  | case5 => rfl
  | case6 c t hAlone hEscape _ _ body closed rest hRest ih =>
      rw [hRest] at ih
      exact (Text.escapesNext_cons (ne_backslash hAlone hEscape) body).trans (ih h)

/-- The literal that an opening mark begins. -/
theorem delimited_literalBody {quote : Char} (hQuote : isQuote quote) (t : Text) :
    (StringLiteral.mk quote (literalBody quote t).1 (literalBody quote t).2.1).Delimited
      (literalBody quote t).2.2 := by
  have hMark := ne_backslash_of_isQuote hQuote
  have hInside := not_unescaped_literalBody hMark (.inl rfl) t
  have hClosed : (literalBody quote t).2.1 = true ↔
      (StringLiteral.mk quote (literalBody quote t).1 (literalBody quote t).2.1).IsClosed := by
    constructor
    · intro hTerminated
      refine ⟨(literalBody quote t).1, ?_, escapesNext_literalBody (.inl hTerminated)⟩
      simp [StringLiteral.source, hTerminated]
    · rintro ⟨body, hSource, hBody⟩
      cases hEnd : (literalBody quote t).2.1 with
      | true => rfl
      | false =>
          have hText : (literalBody quote t).1 = body ++ [quote] := by
            simpa [StringLiteral.source, hEnd] using hSource
          exact absurd ⟨body, [], hText, hBody⟩ hInside
  refine ⟨hQuote, hInside, ?_, hClosed, ?_⟩
  · exact fun hKind => not_unescaped_literalBody (by decide) (.inr ⟨rfl, hKind⟩) t
  · rw [← hClosed, Bool.not_eq_true, iff_self_and]
    intro hOpen
    rcases literalBody_of_unclosed hOpen with hEnd | ⟨hKind, rest, hLine⟩
    · exact .inl hEnd
    · exact .inr ⟨hKind, escapesNext_literalBody (.inr (by simp [hLine])), by simp [hLine]⟩

/-! ### Comments and plain code -/

/-- A line comment as it may stand before `rest`: from two slashes up to a line feed or to the end
of the text. -/
def IsLineComment (body rest : Text) : Prop :=
  ['/', '/'] <+: body ∧ Text.lineFeed ∉ body ∧ (rest = [] ∨ rest.head? = some Text.lineFeed)

/-- A block comment as it may stand before `rest`: from a slash and an asterisk through the first
end mark behind them, or to the end of the text when there is none. -/
def IsBlockComment (body rest : Text) : Prop :=
  ∃ inner, body = '/' :: '*' :: inner ∧
    ((∃ before, inner = before ++ ['*', '/'] ∧ ¬['*', '/'] <:+: before ++ ['*']) ∨
      rest = [] ∧ ¬['*', '/'] <:+: inner)

/-- A token as it may stand before `rest`. Plain code holds neither a quotation mark nor the
beginning of a comment, and goes on as far as it can. -/
def Delimited : Token → (rest : Text) → Prop
  | code body, rest =>
    (∀ c ∈ body, isQuote c = false) ∧ ¬['/', '/'] <:+: body ∧ ¬['/', '*'] <:+: body ∧
      ∀ c u, rest = c :: u → isPlain c u = false
  | comment body, rest => IsLineComment body rest ∨ IsBlockComment body rest
  | literal l, rest => l.Delimited rest

theorem lineComment_delimited (t : Text) :
    Text.lineFeed ∉ (lineComment t).1 ∧
      ((lineComment t).2 = [] ∨ (lineComment t).2.head? = some Text.lineFeed) := by
  fun_induction lineComment t with
  | case1 => exact ⟨List.not_mem_nil, .inl rfl⟩
  | case2 t => exact ⟨List.not_mem_nil, .inr rfl⟩
  | case3 c t hc body rest hRest ih =>
      rw [hRest] at ih
      refine ⟨?_, ih.2⟩
      rw [List.mem_cons]
      exact not_or.2 ⟨Ne.symm hc, ih.1⟩

/-- The end mark stands in a block comment at its end only, or else the text ends with it. -/
theorem blockComment_delimited (t : Text) :
    (∃ before, (blockComment t).1 = before ++ ['*', '/'] ∧ ¬['*', '/'] <:+: before ++ ['*']) ∨
      (blockComment t).2 = [] ∧ ¬['*', '/'] <:+: (blockComment t).1 := by
  fun_induction blockComment t with
  | case1 => exact .inr ⟨rfl, by simp⟩
  | case2 t => exact .inl ⟨[], rfl, by decide⟩
  | case3 c t hNot body rest hRest ih =>
      have hText := blockComment_append t
      simp only [hRest] at ih hText
      -- no end mark begins here, so none begins here in what is only a beginning of the text
      have hHere {u : Text} (hu : u <+: t) : ¬['*', '/'] <+: c :: u := by
        intro hMark
        obtain ⟨hc, more, rfl⟩ := List.cons_prefix_cons.1
          (hMark.trans (List.cons_prefix_cons.2 ⟨rfl, hu⟩))
        exact hNot more hc.symm rfl
      rcases ih with ⟨before, hBody, hFirst⟩ | ⟨hEnd, hNone⟩
      · refine .inl ⟨c :: before, by rw [hBody]; rfl, ?_⟩
        have hBefore : before ++ ['*'] <+: t :=
          ⟨'/' :: rest, by rw [← hText, hBody]; simp⟩
        rw [List.cons_append, List.infix_cons_iff]
        exact not_or.2 ⟨hHere hBefore, hFirst⟩
      · refine .inr ⟨hEnd, ?_⟩
        rw [List.infix_cons_iff]
        exact not_or.2 ⟨hHere ⟨rest, hText⟩, hNone⟩

theorem opensComment_iff (t : Text) :
    opensComment t ↔ ['/', '/'] <+: t ∨ ['/', '*'] <+: t := by
  cases t with
  | nil => simp [opensComment]
  | cons c t =>
      rw [opensComment_cons_iff]
      cases t with
      | nil => simp
      | cons d t => simp [List.cons_prefix_cons, eq_comm, and_or_left]

theorem delimited_plainCode (t : Text) : (code (plainCode t).1).Delimited (plainCode t).2 := by
  induction t with
  | nil => simp [plainCode, Delimited]
  | cons c t ih =>
      rw [plainCode_cons]
      cases hPlain : isPlain c t with
      | false => simp [Delimited, hPlain]
      | true =>
          rw [if_pos rfl]
          obtain ⟨hQuotes, hLine, hBlock, hRest⟩ := ih
          have hBody : c :: (plainCode t).1 <+: c :: t :=
            List.cons_prefix_cons.2 ⟨rfl, _, plainCode_append t⟩
          simp only [isPlain, Bool.and_eq_true, Bool.not_eq_true'] at hPlain
          have hOpens := mt (opensComment_iff (c :: t)).2 (by simp [hPlain.2])
          refine ⟨List.forall_mem_cons.2 ⟨hPlain.1, hQuotes⟩, ?_, ?_, hRest⟩
          · rw [List.infix_cons_iff]
            exact not_or.2 ⟨fun h => hOpens (.inl (h.trans hBody)), hLine⟩
          · rw [List.infix_cons_iff]
            exact not_or.2 ⟨fun h => hOpens (.inr (h.trans hBody)), hBlock⟩

/-- Every token ends where its kind says. -/
theorem delimited_first (c : Char) (t : Text) : (first c t).1.Delimited (first c t).2 := by
  cases hQuote : isQuote c with
  | true =>
      rw [first_of_isQuote hQuote]
      exact delimited_literalBody hQuote t
  | false =>
      cases hComment : opensComment (c :: t) with
      | false =>
          have hPlain : isPlain c t := by simp [isPlain, hQuote, hComment]
          have hCode := delimited_plainCode (c :: t)
          rw [plainCode_cons, if_pos hPlain] at hCode
          rw [first_of_isPlain hPlain]
          exact hCode
      | true =>
          rcases (opensComment_iff _).1 hComment with ⟨u, hText⟩ | ⟨u, hText⟩
          · obtain ⟨rfl, rfl⟩ := List.cons.inj hText
            obtain ⟨hFeed, hRest⟩ := lineComment_delimited u
            exact .inl ⟨⟨(lineComment u).1, rfl⟩, by simpa [Text.lineFeed] using hFeed, hRest⟩
          · obtain ⟨rfl, rfl⟩ := List.cons.inj hText
            exact .inr ⟨(blockComment u).1, rfl, blockComment_delimited u⟩

theorem source_first_ne_nil (c : Char) (t : Text) : (first c t).1.source ≠ [] := by
  intro hEmpty
  have hText := source_first c t
  have hLength := length_first_lt c t
  rw [hEmpty, List.nil_append] at hText
  rw [hText] at hLength
  exact Nat.lt_irrefl _ hLength

def isCode : Token → Bool
  | code _ => true
  | _ => false

theorem isPlain_of_isCode_first {c : Char} {t : Text} (h : (first c t).1.isCode) :
    isPlain c t := by
  cases hQuote : isQuote c with
  | true => simp [first_of_isQuote hQuote, isCode] at h
  | false =>
      cases hComment : opensComment (c :: t) with
      | false => simp [isPlain, hQuote, hComment]
      | true =>
          have hKind := isComment_first hComment
          cases hToken : (first c t).1 with
          | code body => simp [hToken, isComment] at hKind
          | comment body => simp [hToken, isCode] at h
          | literal l => simp [hToken, isComment] at hKind

/-- Plain code goes on as far as it can, so what follows it begins with none. -/
theorem Delimited.isPlain_eq_false {token : Token} {c : Char} {u : Text}
    (h : token.Delimited (c :: u)) (hCode : token.isCode) : isPlain c u = false := by
  cases token with
  | code body => exact h.2.2.2 c u rfl
  | comment body => exact absurd hCode (by simp [isCode])
  | literal l => exact absurd hCode (by simp [isCode])

theorem isChain_tokens (t : Text) :
    (tokens t).IsChain fun token next => ¬(token.isCode ∧ next.isCode) := by
  fun_induction tokens t with
  | case1 => exact .nil
  | case2 c t ih =>
      rw [List.isChain_cons]
      refine ⟨fun next hNext => ?_, ih⟩
      rintro ⟨hCode, hMore⟩
      have hDelimited := delimited_first c t
      cases hRest : (first c t).2 with
      | nil => simp [hRest] at hNext
      | cons d u =>
          rw [hRest, tokens_cons] at hNext
          obtain rfl := Option.some.inj hNext
          rw [hRest] at hDelimited
          have hEnd := hDelimited.isPlain_eq_false hCode
          exact absurd (isPlain_of_isCode_first hMore) (by simp [hEnd])

end Token

/-! ### Spans -/

/-- A token with the positions of its first character and of the character behind its last. -/
structure Span where
  start : Nat
  stop : Nat
  token : Token

namespace Span

/-- The spans of tokens that start at a position and follow one another. -/
def laidOut : (position : Nat) → List Token → List Span
  | _, [] => []
  | position, token :: tokens =>
    let stop := position + token.source.length
    ⟨position, stop, token⟩ :: laidOut stop tokens

/-- The literal that stands in a span, with the position of its opening mark. -/
def literal? (span : Span) : Option (Nat × StringLiteral) :=
  span.token.literal?.map (span.start, ·)

theorem map_token_laidOut (position : Nat) (tokens : List Token) :
    (laidOut position tokens).map token = tokens := by
  induction tokens generalizing position with
  | nil => rfl
  | cons token tokens ih => simp [laidOut, ih]

/-- Each span starts where the one before it stops. -/
theorem map_start_laidOut (position : Nat) (tokens : List Token) :
    (laidOut position tokens).map start ++ [position + (tokens.flatMap Token.source).length] =
      position :: (laidOut position tokens).map stop := by
  induction tokens generalizing position with
  | nil => simp [laidOut]
  | cons token tokens ih =>
      have hRest := ih (position + token.source.length)
      simp only [laidOut, List.map_cons, List.flatMap_cons, List.length_append, List.cons_append,
        ← Nat.add_assoc]
      rw [hRest]

theorem literalsFrom_eq (position : Nat) (tokens : List Token) :
    literalsFrom position tokens = (laidOut position tokens).filterMap literal? := by
  induction tokens generalizing position with
  | nil => rfl
  | cons token tokens ih =>
      cases token <;>
        simp [literalsFrom, laidOut, literal?, Token.literal?, List.filterMap_cons, ih]

end Span

namespace Text

/-- What stands in a text from one position up to another. -/
def slice (t : Text) (start stop : Nat) : Text := (t.take stop).drop start

/-- The tokens of code, each with where it stands. -/
def spans (code : Text) : List Span := Span.laidOut 0 (Token.tokens code)

theorem slice_append (before t after : Text) :
    slice (before ++ (t ++ after)) before.length (before.length + t.length) = t := by
  rw [slice, List.take_length_add_append, List.take_left, List.drop_left]

/-- What stands in the spans of the tokens of `code`, when `before` stands in front of it. -/
theorem laidOut_tokens (before code : Text) :
    ∀ span ∈ Span.laidOut before.length (Token.tokens code),
      span.start < span.stop ∧
      slice (before ++ code) span.start span.stop = span.token.source ∧
      span.token.Delimited ((before ++ code).drop span.stop) := by
  induction hTokens : Token.tokens code generalizing before code with
  | nil => simp [Span.laidOut]
  | cons token rest ih =>
      cases code with
      | nil => simp at hTokens
      | cons c t =>
          rw [Token.tokens_cons] at hTokens
          obtain ⟨rfl, hRest⟩ := List.cons.inj hTokens
          have hText : before ++ c :: t =
              before ++ ((Token.first c t).1.source ++ (Token.first c t).2) := by
            rw [Token.source_first]
          rw [hText]
          refine List.forall_mem_cons.2 ⟨⟨?_, slice_append .., ?_⟩, ?_⟩
          · have hFilled := List.length_pos_iff.2 (Token.source_first_ne_nil c t)
            exact Nat.lt_add_of_pos_right hFilled
          · rw [← List.append_assoc, ← List.length_append, List.drop_left]
            exact Token.delimited_first c t
          · have hMore := ih (before ++ (Token.first c t).1.source) _ hRest
            rwa [List.length_append, List.append_assoc] at hMore

/-- The tokens of code follow one another without a gap from its beginning to its end, none of them
is empty, and no two of plain code are neighbours. In its span stands the lexeme of each, and it
ends where its kind says. The literals of the code are those that stand in these spans. -/
theorem spans_cover (code : Text) :
    code.spans.map Span.start ++ [code.length] = 0 :: code.spans.map Span.stop ∧
    (∀ span ∈ code.spans, span.start < span.stop ∧
      code.slice span.start span.stop = span.token.source ∧
      span.token.Delimited (code.drop span.stop)) ∧
    (code.spans.map Span.token).IsChain (fun token next => ¬(token.isCode ∧ next.isCode)) ∧
    code.locatedLiterals = code.spans.filterMap Span.literal? := by
  refine ⟨?_, laidOut_tokens [] code, ?_, Span.literalsFrom_eq 0 _⟩
  · have hCovered := Span.map_start_laidOut 0 (Token.tokens code)
    rwa [Token.source_tokens, Nat.zero_add] at hCovered
  · rw [spans, Span.map_token_laidOut]
    exact Token.isChain_tokens code

end Text

end Composer
