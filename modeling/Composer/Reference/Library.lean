import Composer.Environment
import Composer.File
import Composer.Json.Reader
import Composer.Reference.Song

/-!
Retrieval from a reference dataset. Songs are ranked by how many keywords they share with a query,
equal ranks by title and then by their order in the file. Beside the best matches some songs are
shown that differ from them most: those that share the fewest genres with them.

A dataset is read completely or not at all: the first line that is no song, or priors that cannot be
read, make reading fail. The two files are read in this order. How deeply the priors may be nested
is up to the caller, as for every message.
-/

namespace Composer

/-- A song found for a query, with the number of keywords they share. A diverse one is shown for
contrast. -/
structure Retrieved where
  song : ReferenceSong
  score : Nat
  diverse : Bool
  deriving DecidableEq, Repr, Inhabited

/-- What is known of the style of a dataset as a whole. -/
structure StylePriors where
  bullets : List Text
  deriving DecidableEq, Repr, Inhabited

/-- Style priors given as an object; unknown members are passed over. -/
def StylePriors.ofJson (found : Json) : Checked StylePriors :=
  (Field.members .modelType found).andThen fun ms =>
    StylePriors.mk <$> Field.defaulted "summary_bullets" [] (Field.list Field.text) ms

/-- The songs of a dataset in file order, and its style priors if it has any. -/
structure ReferenceLibrary where
  songs : List ReferenceSong
  priors : Option StylePriors
  deriving Inhabited

structure DatasetFiles where
  songs : Option FileContent
  priors : Option FileContent
  deriving Inhabited

def DatasetFiles.songsName : Text := "songs.jsonl"

def DatasetFiles.priorsName : Text := "style_priors.json"

inductive DatasetError where
  | noSongs
  | undecodable (fault : Utf8.Fault)
  | invalidSong (faults : List Fault)
  | invalidPriors (faults : List Fault)
  /-- The text of the priors file is no JSON text. -/
  | unreadablePriors (content : Text) (error : Json.ReadError)

/-- The sentence that reports why a dataset cannot be read. -/
def DatasetError.message : DatasetError → Text
  | noSongs => "no songs"
  | undecodable fault => fault.message
  | invalidSong faults => faultHeadline faults "ReferenceSong"
  | invalidPriors faults => faultHeadline faults "StylePriors"
  | unreadablePriors content error => error.message content

namespace ReferenceLibrary

/-- The folder of the dataset: the one that is asked for, and else the one that the environment
names. An empty name asks for none. -/
def folder? (asked : Option Text) (env : Environment) : Option Text :=
  (asked <|> env.lookup ("AUDIAL_REFERENCE_DATA" : Text)).filter (!·.isEmpty)

/-- The number of different keywords that a query and a song share. -/
def score (query : Text) (s : ReferenceSong) : Nat :=
  (ReferenceSong.keywordsOf query).countP s.keywords.contains

/-- The rank order: more shared keywords first, then the title. -/
def ranksBefore (r s : Retrieved) : Bool :=
  s.score < r.score || (r.score == s.score && r.song.title.atMost s.song.title)

def ranked (query : Text) (songs : List ReferenceSong) : List Retrieved :=
  (songs.map fun s => ⟨s, score query s, false⟩).mergeSort ranksBefore

/-- How many different genres a song shares with the given ones. -/
def sharedGenres (chosen : List Text) (s : ReferenceSong) : Nat :=
  s.genres.eraseDups.countP chosen.contains

/-- The order of contrast: fewer shared genres first, then the title. -/
def contrastsBefore (chosen : List Text) (r s : Retrieved) : Bool :=
  sharedGenres chosen r.song < sharedGenres chosen s.song ||
    (sharedGenres chosen r.song == sharedGenres chosen s.song &&
      r.song.title.atMost s.song.title)

/-- Up to `count` of the ranked songs, as far as they share a keyword with the query. -/
def matching (count : Int) (ranking : List Retrieved) : List Retrieved :=
  (upTo count ranking).filter fun r => 0 < r.score

/-- The songs of a ranking that are neither among its first ones nor agree with one of them. -/
def others (top ranking : List Retrieved) : List Retrieved :=
  (ranking.drop top.length).filter fun r => !top.any fun s => s.song.agrees r.song

/-- The best matches for a query, then up to `diverse` songs for contrast. Without a match there is
nothing to contrast with. -/
def retrieve (library : ReferenceLibrary) (query : Text) (count diverse : Int) : List Retrieved :=
  let ranking := ranked query library.songs
  let top := matching count ranking
  if top.isEmpty then []
  else
    let chosen := top.flatMap (·.song.genres)
    let contrast := (others top ranking).mergeSort (contrastsBefore chosen)
    top ++ (contrast.take diverse.toNat).map fun r => { r with diverse := true }

def songOfLine (line : Text) : Except DatasetError ReferenceSong :=
  match Json.read Json.record line with
  | .error _ => .error (.invalidSong [⟨.jsonInvalid, [], .str line⟩])
  | .ok found =>
    match ReferenceSong.ofJson found with
    | .sound s => .ok s
    | .faulty faults => .error (.invalidSong faults)

/-- The songs of a song file: one on each line that is not blank. -/
def songsOfText (t : Text) : Except DatasetError (List ReferenceSong) :=
  (t.lines.filter fun line => !line.isBlankText).mapM songOfLine

def priorsOfText (depth : Nat) (t : Text) : Except DatasetError StylePriors :=
  match Json.read (Json.message depth) t with
  | .error e => .error (.unreadablePriors t e)
  | .ok found =>
    match StylePriors.ofJson found with
    | .sound priors => .ok priors
    | .faulty faults => .error (.invalidPriors faults)

def textOf (content : FileContent) : Except DatasetError Text :=
  match content.read with
  | .ok t => .ok t
  | .error fault => .error (.undecodable fault)

def load (depth : Nat) (files : DatasetFiles) : Except DatasetError ReferenceLibrary :=
  match files.songs with
  | none => .error .noSongs
  | some content => do
    let songs ← songsOfText (← textOf content)
    match files.priors with
    | none => return ⟨songs, none⟩
    | some priors => return ⟨songs, some (← priorsOfText depth (← textOf priors))⟩

/-- The library of a dataset that need not be there: without a song file there is none. -/
def loadIfPresent (depth : Nat) (files : DatasetFiles) :
    Except DatasetError (Option ReferenceLibrary) :=
  if files.songs.isNone then .ok none else (load depth files).map some

end ReferenceLibrary

/-- A source of reference material, which may fail at every request. -/
structure ReferenceSource where
  retrieve : (query : Text) → (count diverse : Int) → Except Unit (List Retrieved)
  stylePriors : Except Unit (Option StylePriors)

namespace ReferenceSource

def ofLibrary (library : ReferenceLibrary) : ReferenceSource where
  retrieve query count diverse := .ok (library.retrieve query count diverse)
  stylePriors := .ok library.priors

/-- The source in the files of a dataset that need not be there. Where these files are of no use
there is no source, whatever is wrong with them. -/
def ofFiles? (depth : Nat) (files : DatasetFiles) : Option ReferenceSource :=
  match ReferenceLibrary.loadIfPresent depth files with
  | .ok library => library.map ofLibrary
  | .error _ => none

/-- The source that fails whenever it is asked for songs. -/
def failing : ReferenceSource where
  retrieve _ _ _ := .error ()
  stylePriors := .ok none

end ReferenceSource

end Composer
