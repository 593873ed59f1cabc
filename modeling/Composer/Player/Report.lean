import Composer.Field.Reading

/-!
What the player of patterns reports when it cannot play, and how that is shown. A report of the
pattern parser is shortened to the line and the complaint; any other loses only the words that
announce it.
-/

namespace Composer

inductive PlayerReport where
  /-- Something went wrong and nothing is known of it. -/
  | silent
  | text (t : Text)
  /-- An error of a pattern that was playing, perhaps with the line that it is on. -/
  | patternError (message : Text) (line : Option Int)
  deriving DecidableEq, Repr

namespace PlayerReport

/-- An error of a pattern given as an object; unknown members are passed over. -/
def ofJson (found : Json) : Checked PlayerReport :=
  (Field.members .modelType found).andThen fun ms =>
    patternError <$> Field.required "message" Field.text ms
      <*> Field.defaulted "line" none (Field.optional Field.integer) ms

/-- What a report of the pattern parser starts with, before the number of the line. -/
def parserMark : Text := "[mini] parse error at line "

/-- A report of the pattern parser at the start of a text: the digits of the line, and the
complaint, which ends with the line of text and is not empty. -/
def parserReport? (t : Text) : Option (Text × Text) :=
  match Text.after? parserMark t with
  | none => none
  | some u =>
    let digits := u.takeWhile isDecimalDigit
    match Text.after? ": " (u.dropWhile isDecimalDigit) with
    | none => none
    | some v =>
      let complaint := v.takeWhile (· != Text.lineFeed)
      if digits.isEmpty || complaint.isEmpty then none else some (digits, complaint)

def firstParserReport? : Text → Option (Text × Text)
  | [] => none
  | c :: t => (parserReport? (c :: t)).or (firstParserReport? t)

/-- The words, in lower case, that announce an error of the player. -/
def announcement : Text := "strudel error: "

def shorten (t : Text) : Text :=
  match firstParserReport? t with
  | some (digits, complaint) => "parse error at line " ++ digits ++ ": " ++ complaint
  | none => (Text.afterFolded? announcement t).getD t

def shown : PlayerReport → Text
  | silent => "unknown error"
  | text t => shorten t
  | patternError message _ => shorten (if message.isEmpty then "strudel error" else message)

/-- What in a message, in lower case, points to the player or to the parser. -/
def lastingMarkers : List Text := ["strudel", "parse error"]

def isLasting (message : Text) : Bool := lastingMarkers.any message.lower.contains

end PlayerReport

end Composer
