import Composer.Json.Basic
import Composer.Number.Reading

/-!
Reading JSON texts. The grammar is the standard one, with the words `NaN`, `Infinity` and
`-Infinity` added for the numbers that have no digits. Of several members with one key the last
counts.

A text is refused at the first place where it cannot be read on: because it is malformed, because a
whole number has too many digits, or because arrays and objects are nested too deeply.
-/

namespace Composer.Json

inductive Complaint where
  | noValue
  | noKey
  | noColon
  | noComma
  | openString
  | controlCharacter
  | unknownEscape
  | brokenEscape
  | moreText
  | byteOrderMark
  deriving DecidableEq, Repr

def Complaint.words : Complaint → Text
  | noValue => "Expecting value"
  | noKey => "Expecting property name enclosed in double quotes"
  | noColon => "Expecting ':' delimiter"
  | noComma => "Expecting ',' delimiter"
  | openString => "Unterminated string starting at"
  | controlCharacter => "Invalid control character at"
  | unknownEscape => "Invalid \\escape"
  | brokenEscape => "Invalid \\uXXXX escape"
  | moreText => "Extra data"
  | byteOrderMark => "Unexpected UTF-8 BOM (decode using utf-8-sig)"

/-- Why a text cannot be read: the complaint, with how many characters there are from its place on;
the digits of a whole number that has too many; or what is nested too deeply, an array or an
object. -/
inductive ReadError where
  | malformed (complaint : Complaint) (left : Nat)
  | oversizedInteger (digits : Nat)
  | tooDeep (inArray : Bool)
  deriving DecidableEq, Repr

/-- The sentence that reports why a text cannot be read. Lines and columns count from 1. -/
def ReadError.message (t : Text) : ReadError → Text
  | malformed complaint left =>
    let before := t.take (t.length - left)
    let line := Text.countChar before Text.lineFeed + 1
    let column := (before.reverse.takeWhile (· != Text.lineFeed)).length + 1
    complaint.words ++ ": line " ++ Text.ofNat line ++ " column " ++ Text.ofNat column ++
      " (char " ++ Text.ofNat before.length ++ ")"
  | oversizedInteger digits => Reading.oversizedMessage digits
  | tooDeep inArray =>
    "maximum recursion depth exceeded while decoding a JSON " ++
      (if inArray then "array" else "object") ++ " from a unicode string"

namespace Reader

/-- The key of a member whose own key is no text. Its own key takes the place of its value, so that
such a member is never taken for one that was meant. -/
def brokenKey : Text := ['\ufffd']

def isSpace (c : Char) : Bool := c == ' ' || c == '\t' || c == '\n' || c == '\r'

def hexDigit? (c : Char) : Option Nat :=
  if '0' ≤ c ∧ c ≤ '9' then some (c.toNat - 48)
  else if 'a' ≤ c ∧ c ≤ 'f' then some (c.toNat - 87)
  else if 'A' ≤ c ∧ c ≤ 'F' then some (c.toNat - 55)
  else none

/-- The four hexadecimal digits at the start of a text. -/
def hexQuad? : Text → Option (Nat × Text)
  | a :: b :: c :: d :: t =>
    match hexDigit? a, hexDigit? b, hexDigit? c, hexDigit? d with
    | some a, some b, some c, some d => some (((a * 16 + b) * 16 + c) * 16 + d, t)
    | _, _, _, _ => none
  | _ => none

def shortEscape? : Char → Option Char
  | '"' => some '"'
  | '\\' => some '\\'
  | '/' => some '/'
  | 'b' => some '\x08'
  | 'f' => some '\x0c'
  | 'n' => some '\n'
  | 'r' => some '\r'
  | 't' => some '\t'
  | _ => none

def complain {α : Type} (complaint : Complaint) (t : Text) : Except ReadError α :=
  .error (.malformed complaint t.length)

/-- One code point of a string, and the rest. `start` is how many characters there are from the
opening quotation mark on. -/
def codePoint (start : Nat) : Text → Except ReadError (CodePoint × Text)
  | '\\' :: 'u' :: t =>
    match hexQuad? t with
    | none => complain .brokenEscape ('u' :: t)
    | some (high, rest) =>
      if rest.isEmpty then complain .brokenEscape ('u' :: t)
      else if 0xD800 ≤ high ∧ high < 0xDC00 then
        match rest with
        | '\\' :: 'u' :: u =>
          match hexQuad? u with
          | some (low, rest') =>
            if 0xDC00 ≤ low ∧ low < 0xE000 then
              .ok (.char (.ofNat (0x10000 + (high - 0xD800) * 0x400 + (low - 0xDC00))), rest')
            else .ok (.ofSurrogate high, rest)
          | none => .ok (.ofSurrogate high, rest)
        | _ => .ok (.ofSurrogate high, rest)
      else if 0xDC00 ≤ high ∧ high < 0xE000 then .ok (.ofSurrogate high, rest)
      else .ok (.char (.ofNat high), rest)
  | '\\' :: c :: t =>
    match shortEscape? c with
    | some e => .ok (.char e, t)
    | none => complain .unknownEscape ('\\' :: c :: t)
  | ['\\'] => .error (.malformed .openString start)
  | c :: t => if c.toNat < 0x20 then complain .controlCharacter (c :: t) else .ok (.char c, t)
  | [] => .error (.malformed .openString start)

/-- The code points of a string up to its closing quotation mark, and the rest. `fuel` bounds the
characters left. -/
def codePoints (start : Nat) : (fuel : Nat) → Text → Except ReadError (WideText × Text)
  | 0, _ => .error (.malformed .openString start)
  | _ + 1, '"' :: t => .ok ([], t)
  | fuel + 1, t =>
    match codePoint start t with
    | .error e => .error e
    | .ok (p, rest) => (codePoints start fuel rest).map fun (s, rest') => (p :: s, rest')

/-- A string after its opening quotation mark, and the rest. A string that is no text is refused
unless `admitBroken` holds. -/
def string (admitBroken : Bool) (t : Text) : Except ReadError (WideText × Text) :=
  match codePoints (t.length + 1) (t.length + 1) t with
  | .error e => .error e
  | .ok (s, rest) =>
    if admitBroken || s.narrow?.isSome then .ok (s, rest) else complain .brokenEscape t

/-- The members of an object after one more. -/
def addMember (key : WideText) (item : Json) (before : List (Text × Json)) : List (Text × Json) :=
  match key.narrow? with
  | some name => setMember name item before
  | none => setMember brokenKey (ofString key) before

/-- An exponent at the start of a text, if there is a complete one: its digits signed, and the
rest. -/
def exponent? (t : Text) : Option (Int × Text) :=
  match t with
  | e :: u =>
    if e == 'e' || e == 'E' then
      let (negative, v) := Reading.sign u
      let digits := v.takeWhile isAsciiDigit
      if digits = [] then none
      else some (Reading.signedValue negative digits, v.dropWhile isAsciiDigit)
    else none
  | [] => none

/-- A fraction at the start of a text, if there is a complete one: its digits, and the rest. -/
def fraction? (t : Text) : Option (Text × Text) :=
  match t with
  | '.' :: u =>
    let digits := u.takeWhile isAsciiDigit
    if digits = [] then none else some (digits, u.dropWhile isAsciiDigit)
  | _ => none

/-- A number at the start of a text, its sign already taken off. A whole part has no leading zero.
`start` is how many characters there are from the sign on. -/
def number (start : Nat) (negative : Bool) (t : Text) : Except ReadError (Json × Text) :=
  let (whole, rest) : Text × Text :=
    match t with
    | '0' :: u => (['0'], u)
    | _ => (t.takeWhile isAsciiDigit, t.dropWhile isAsciiDigit)
  if whole = [] then .error (.malformed .noValue start)
  else
    let (fraction, afterFraction) := (fraction? rest).getD ([], rest)
    let digits := digitsValue (whole ++ fraction)
    let places : Int := fraction.length
    match exponent? afterFraction with
    | some (e, rest') => .ok (.float (.ofDecimal negative digits (e - places)), rest')
    | none =>
      if fraction ≠ [] then .ok (.float (.ofDecimal negative digits (-places)), afterFraction)
      else if Reading.digitLimit < whole.length then .error (.oversizedInteger whole.length)
      else .ok (.int (Reading.signedValue negative whole), rest)

def words : List (Text × Json) :=
  [("null", .null), ("true", .bool true), ("false", .bool false), ("NaN", .float .nan),
    ("Infinity", .float (.infinity false)), ("-Infinity", .float (.infinity true))]

/-- A value without parts at the start of a text: a word or a number. -/
def scalar (t : Text) : Except ReadError (Json × Text) :=
  match words.findSome? fun (word, value) => (Text.after? word t).map fun rest => (value, rest) with
  | some found => .ok found
  | none =>
    match t with
    | '-' :: u => number t.length true u
    | _ => number t.length false t

/-- The text from its first character on that is not white space. -/
def skipSpaces (t : Text) : Text := t.dropWhile isSpace

mutual

/-- A value at the start of a text. Unpaired surrogates are refused unless `admitBroken` holds;
`depth` is how many more levels may be nested; `fuel` bounds the steps left. -/
def value (admitBroken : Bool) : (fuel depth : Nat) → Text → Except ReadError (Json × Text)
  | 0, _, t => complain .noValue t
  | fuel + 1, depth, t =>
    match t with
    | '"' :: u => (string admitBroken u).map fun (s, rest) => (ofString s, rest)
    | '[' :: u =>
      match depth with
      | 0 => .error (.tooDeep true)
      | depth + 1 =>
        match skipSpaces u with
        | ']' :: rest => .ok (.arr [], rest)
        | v => (items admitBroken fuel depth v).map fun (found, rest) => (.arr found, rest)
    | '\x7b' :: u =>
      match depth with
      | 0 => .error (.tooDeep false)
      | depth + 1 =>
        match skipSpaces u with
        | '\x7d' :: rest => .ok (.obj [], rest)
        | v => (members admitBroken fuel depth [] v).map fun (found, rest) => (.obj found, rest)
    | _ => scalar t

/-- The items of an array from the next one on, up to its closing bracket. -/
def items (admitBroken : Bool) : (fuel depth : Nat) → Text → Except ReadError (List Json × Text)
  | 0, _, t => complain .noValue t
  | fuel + 1, depth, t =>
    match value admitBroken fuel depth t with
    | .error e => .error e
    | .ok (item, rest) =>
      match skipSpaces rest with
      | ',' :: u =>
        (items admitBroken fuel depth (skipSpaces u)).map fun (more, rest') => (item :: more, rest')
      | ']' :: u => .ok ([item], u)
      | u => complain .noComma u

/-- The members of an object from the next one on, up to its closing brace, after those `before`. -/
def members (admitBroken : Bool) : (fuel depth : Nat) → (before : List (Text × Json)) → Text →
    Except ReadError (List (Text × Json) × Text)
  | 0, _, _, t => complain .noKey t
  | fuel + 1, depth, before, t =>
    match t with
    | '"' :: u =>
      match string admitBroken u with
      | .error e => .error e
      | .ok (key, rest) => memberValue admitBroken fuel depth before key rest
    | _ => complain .noKey t

/-- The value of the member with the given key, then the members after it. -/
def memberValue (admitBroken : Bool) : (fuel depth : Nat) → (before : List (Text × Json)) →
    (key : WideText) → Text → Except ReadError (List (Text × Json) × Text)
  | 0, _, _, _, t => complain .noColon t
  | fuel + 1, depth, before, key, t =>
    match skipSpaces t with
    | ':' :: v =>
      match value admitBroken fuel depth (skipSpaces v) with
      | .error e => .error e
      | .ok (item, rest) =>
        let found := addMember key item before
        match skipSpaces rest with
        | ',' :: w => members admitBroken fuel depth found (skipSpaces w)
        | '\x7d' :: w => .ok (found, w)
        | w => complain .noComma w
    | w => complain .noColon w

end

end Reader

structure Dialect where
  /-- How deeply arrays and objects may be nested. -/
  depth : Nat
  /-- Whether a string may hold an unpaired surrogate. -/
  admitBroken : Bool

/-- Messages admit unpaired surrogates. How deeply they may be nested is not fixed: their reader
goes one level down its stack with each array and object, so it depends on how much is left of the
stack. -/
def message (depth : Nat) : Dialect := ⟨depth, true⟩

def record : Dialect := ⟨200, false⟩

def byteOrderMark : Char := '\ufeff'

/-- The value of a text in which nothing but white space surrounds it. -/
def read (d : Dialect) (t : Text) : Except ReadError Json :=
  if t.head? = some byteOrderMark then .error (.malformed .byteOrderMark t.length)
  else
    match Reader.value d.admitBroken (3 * t.length + 3) d.depth (Reader.skipSpaces t) with
    | .error e => .error e
    | .ok (found, rest) =>
      match Reader.skipSpaces rest with
      | [] => .ok found
      | u => Reader.complain .moreText u

end Composer.Json
