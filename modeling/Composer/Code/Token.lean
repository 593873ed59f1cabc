import Composer.Text.Basic

/-!
Pattern code as a sequence of tokens: plain code, comments and string literals. A literal stands
between two equal quotation marks of one of three kinds, with a backslash escaping the next
character; only a literal between backquotes may go over a line end. A comment runs from two slashes
to the line end, or from a slash and an asterisk to the next asterisk and slash.

The lexemes of the tokens in order are the code itself (`source_tokens`).
-/

namespace Composer

abbrev backquote : Char := '\x60'

def isQuote (c : Char) : Bool := c == '"' || c == '\'' || c == backquote

/-- A string literal. It is unterminated when its closing mark is missing. -/
structure StringLiteral where
  quote : Char
  text : Text
  terminated : Bool
  deriving DecidableEq, Repr, Inhabited

def StringLiteral.source (l : StringLiteral) : Text :=
  l.quote :: l.text ++ (if l.terminated then [l.quote] else [])

inductive Token where
  | code (text : Text)
  | comment (text : Text)
  | literal (l : StringLiteral)
  deriving DecidableEq, Repr, Inhabited

namespace Token

def source : Token → Text
  | code t => t
  | comment t => t
  | literal l => l.source

def isComment : Token → Bool
  | comment _ => true
  | _ => false

/-- The text of a literal after its opening mark, whether it is closed, and what follows it. -/
def literalBody (quote : Char) : Text → Text × Bool × Text
  | [] => ([], false, [])
  | '\\' :: [] => (['\\'], false, [])
  | '\\' :: c :: t =>
    let (body, closed, rest) := literalBody quote t
    ('\\' :: c :: body, closed, rest)
  | c :: t =>
    if c = quote then ([], true, t)
    else if c = Text.lineFeed ∧ quote ≠ backquote then ([], false, c :: t)
    else
      let (body, closed, rest) := literalBody quote t
      (c :: body, closed, rest)

/-- The rest of a line comment, up to the line feed that ends it, and what follows. -/
def lineComment : Text → Text × Text
  | [] => ([], [])
  | c :: t =>
    if c = Text.lineFeed then ([], c :: t)
    else
      let (body, rest) := lineComment t
      (c :: body, rest)

/-- The rest of a block comment through its end mark, and what follows. Without an end mark the
comment runs to the end of the text. -/
def blockComment : Text → Text × Text
  | [] => ([], [])
  | '*' :: '/' :: t => (['*', '/'], t)
  | c :: t =>
    let (body, rest) := blockComment t
    (c :: body, rest)

/-- Plain code up to the next literal or comment, and what follows. -/
def plainCode : Text → Text × Text
  | [] => ([], [])
  | '/' :: '/' :: t => ([], '/' :: '/' :: t)
  | '/' :: '*' :: t => ([], '/' :: '*' :: t)
  | c :: t =>
    if isQuote c then ([], c :: t)
    else
      let (body, rest) := plainCode t
      (c :: body, rest)

theorem literalBody_append (quote : Char) (t : Text) :
    (literalBody quote t).1 ++ (if (literalBody quote t).2.1 then [quote] else []) ++
      (literalBody quote t).2.2 = t := by
  fun_induction literalBody quote t <;> simp_all

theorem lineComment_append (t : Text) : (lineComment t).1 ++ (lineComment t).2 = t := by
  fun_induction lineComment t <;> simp_all

theorem blockComment_append (t : Text) : (blockComment t).1 ++ (blockComment t).2 = t := by
  fun_induction blockComment t <;> simp_all

theorem plainCode_append (t : Text) : (plainCode t).1 ++ (plainCode t).2 = t := by
  fun_induction plainCode t <;> simp_all

theorem length_literalBody_le (quote : Char) (t : Text) :
    (literalBody quote t).2.2.length ≤ t.length := by
  have := congrArg List.length (literalBody_append quote t)
  simp only [List.length_append] at this
  omega

theorem length_lineComment_le (t : Text) : (lineComment t).2.length ≤ t.length := by
  have := congrArg List.length (lineComment_append t)
  simp only [List.length_append] at this
  omega

theorem length_blockComment_le (t : Text) : (blockComment t).2.length ≤ t.length := by
  have := congrArg List.length (blockComment_append t)
  simp only [List.length_append] at this
  omega

theorem length_plainCode_le (t : Text) : (plainCode t).2.length ≤ t.length := by
  have := congrArg List.length (plainCode_append t)
  simp only [List.length_append] at this
  omega

/-- The token at the start of a text that is not empty, given as its first character and the others,
and what follows it. -/
def first (c : Char) (t : Text) : Token × Text :=
  if isQuote c then
    let (body, closed, rest) := literalBody c t
    (literal ⟨c, body, closed⟩, rest)
  else
    match c, t with
    | '/', '/' :: u =>
      let (body, rest) := lineComment u
      (comment ('/' :: '/' :: body), rest)
    | '/', '*' :: u =>
      let (body, rest) := blockComment u
      (comment ('/' :: '*' :: body), rest)
    | _, _ =>
      let (body, rest) := plainCode t
      (code (c :: body), rest)

/-- The first token and what follows it make up the text. -/
theorem source_first (c : Char) (t : Text) : (first c t).1.source ++ (first c t).2 = c :: t := by
  unfold first
  split
  · simpa [source, StringLiteral.source] using literalBody_append c t
  · split
    · simpa [source] using lineComment_append _
    · simpa [source] using blockComment_append _
    · simpa [source] using plainCode_append _

theorem length_first_lt (c : Char) (t : Text) : (first c t).2.length < (c :: t).length := by
  unfold first
  split
  · exact Nat.lt_succ_of_le (length_literalBody_le c t)
  · split
    · exact Nat.lt_succ_of_le (Nat.le_succ_of_le (length_lineComment_le _))
    · exact Nat.lt_succ_of_le (Nat.le_succ_of_le (length_blockComment_le _))
    · exact Nat.lt_succ_of_le (length_plainCode_le _)

def tokens : Text → List Token
  | [] => []
  | c :: t => (first c t).1 :: tokens (first c t).2
termination_by t => t.length
decreasing_by exact length_first_lt c t

@[simp] theorem tokens_nil : tokens [] = [] := by rw [tokens]

theorem tokens_cons (c : Char) (t : Text) :
    tokens (c :: t) = (first c t).1 :: tokens (first c t).2 := by rw [tokens]

/-- The lexemes of the tokens in order are the text: nothing is lost and nothing is added. -/
theorem source_tokens (t : Text) : (tokens t).flatMap source = t := by
  fun_induction tokens t with
  | case1 => rfl
  | case2 c t ih => rw [List.flatMap_cons, ih, source_first]

end Token

/-- The literals among tokens that start at a position, each with the position of its opening
mark. -/
def literalsFrom : (position : Nat) → List Token → List (Nat × StringLiteral)
  | _, [] => []
  | position, t :: ts =>
    match t with
    | .literal l => (position, l) :: literalsFrom (position + t.source.length) ts
    | _ => literalsFrom (position + t.source.length) ts

namespace Text

/-- The string literals of pattern code in order, each with the position of its opening mark. -/
def locatedLiterals (t : Text) : List (Nat × StringLiteral) := literalsFrom 0 (Token.tokens t)

def literals (t : Text) : List StringLiteral := t.locatedLiterals.map Prod.snd

def withoutComments (t : Text) : Text :=
  ((Token.tokens t).filter (!·.isComment)).flatMap Token.source

end Text

end Composer
