import Composer.Number.Decimal
import Composer.Reference.Library

/-!
The part of a prompt that shows songs of a reference dataset.
-/

namespace Composer.Prompt

def shownMatches : Int := 3

def shownContrasts : Int := 1

def shownLines : Int := 12

def rule : Text := List.replicate 67 '='

/-- Names in a row; a word when that would leave nothing to see. -/
def listed (names : List Text) : Text :=
  let row := Text.joinWith ", " names
  if row.isEmpty then "none" else row

def songEntry (r : Retrieved) : Text :=
  let s := r.song
  let author : Text :=
    match s.author with
    | some (c :: name) => " by " ++ c :: name
    | _ => []
  let tempo : List Text :=
    match s.bpm with
    | some x => if x.isZero then [] else ["BPM: " ++ x.toRoundedText]
    | none => []
  Text.unlines
    (["[" ++ s.title ++ author ++ "]",
      "Genres: " ++ listed s.genres,
      "Moods: " ++ listed s.moods,
      "Techniques: " ++ listed (s.techniques.take 3)] ++ tempo ++
      ["\nSnippet:\n" ++ s.snippet shownLines ++ "\n"]) ++ "\n"

/-- Songs under a heading; nothing when there are none. -/
def songSection (heading : Text) (found : List Retrieved) : Text :=
  if found.isEmpty then [] else heading ++ found.flatMap songEntry

def styleEntry (bullet : Text) : Text := "- " ++ bullet ++ "\n"

def styleSection (bullets : List Text) : Text :=
  if bullets.isEmpty then []
  else
    "Style priors (from dataset):\n" ++ bullets.flatMap styleEntry ++ "\n"

/-- The section on what was found for a request; nothing when nothing was found. -/
def referenceText (found : List Retrieved) (bullets : List Text) : Text :=
  if found.isEmpty && bullets.isEmpty then []
  else
    "\n\n" ++ rule ++ "\nREFERENCE DATASET (strudel songs)\n" ++ rule ++ "\n\n" ++
      "Use these as inspiration only. Do not copy verbatim. Borrow structure, groove and arrangement ideas.\n\n" ++
      styleSection bullets ++
      songSection "Top references:\n\n" (found.filter (!·.diverse)) ++
      songSection "Diverse exemplar (different style):\n\n" (found.filter (·.diverse)) ++
      "Rules:\n" ++
      "- Do not copy more than 1-2 consecutive lines from any reference snippet\n" ++
      "- Change melody, rhythm and harmony; references are structural inspiration only\n" ++
      "\n" ++ rule ++ "\n\n"

/-- The reference section for a request, or the failure of the source. At most six style priors are
shown. -/
def referenceSection (request : Text) (source : ReferenceSource) : Except Unit Text := do
  let found ← source.retrieve request shownMatches shownContrasts
  let priors ← source.stylePriors
  return referenceText found (priors.elim [] fun p => p.bullets.take 6)

/-- The reference section for a request. Reference material never stands in the way: without a
source, and when the source fails, the section is empty. -/
def optionalReferenceSection (request : Text) (source : Option ReferenceSource) : Text :=
  match source with
  | none => []
  | some source =>
    match referenceSection request source with
    | .ok t => t
    | .error () => []

end Composer.Prompt
