import Composer.File
import Composer.Song.Name
import Composer.Song.Sheet
import Composer.Time.Reading

/-!
Folders of song files. Saving adds one file under a name that no song file or folder had, and
changes no other; without code nothing is saved. A listing shows every song, newest first. What
counts is the time of creation on the sheet, as far as it can be read, and else the time when the
file was changed last.
-/

namespace Composer

/-- What a folder has under a name: a file, with the instant of its last change, or another
folder. -/
inductive FolderEntry where
  | file (content : FileContent) (modified : Int)
  | folder
  deriving DecidableEq, Repr

/-- The entries of a folder by name, in the folder's own order. -/
abbrev SongFolder := List (Text × FolderEntry)

inductive SaveError where
  | missingCode
  deriving DecidableEq, Repr

def SaveError.message : SaveError → Text
  | missingCode => "Missing song code."

inductive ListingError where
  | undecodable (fault : Utf8.Fault)
  /-- A local time that cannot be told, for want of days in this year. -/
  | outOfCalendar (year : Int)
  deriving DecidableEq, Repr

/-- The sentence that reports why songs cannot be listed. -/
def ListingError.message : ListingError → Text
  | undecodable fault => fault.message
  | outOfCalendar year => "year " ++ Text.ofInt year ++ " is out of range"

/-- A song of a listing: its sheet, and the file that it is in. -/
structure ListedSong where
  sheet : SongSheet
  fileName : Text
  deriving DecidableEq, Repr, Inhabited

namespace Song

/-- A prompt on one line, its words one space apart; none when it has no words. -/
def onOneLine (prompt : Option Text) : Option Text :=
  prompt.bind fun t => SongSheet.nonEmpty? (Text.joinWith [' '] t.words)

def fallbackTitle (now : Stamp) : Text := "song-" ++ now.toName

/-- The title of a song, given one that may be missing or blank. -/
def titleOf (title : Option Text) (now : Stamp) : Text :=
  (SongSheet.nonEmpty? (title.getD []).strip).getD (fallbackTitle now)

def sheetOf (code : Text) (title prompt : Option Text) (now : Stamp) : SongSheet :=
  ⟨titleOf title now, now.toText, onOneLine prompt, code⟩

/-- An instant that is known by its local time. -/
def localInstant (t : Int) : Except ListingError Int :=
  match Stamp.missingYear? t with
  | some year => .error (.outOfCalendar year)
  | none => .ok t

/-- The time of creation, as far as it can be read; `Z` stands for universal time wherever it is in
the text. -/
def createdStamp? (created : Text) : Option Stamp :=
  Stamp.ofText? (Text.replaceChar 'Z' "+00:00" created)

/-- The instant that a song is dated by, and the text for it. -/
def dated (created : Text) (modified : Int) : Except ListingError (Int × Text) :=
  match createdStamp? created with
  | some s =>
    if s.offset.isSome then .ok (s.instant, created)
    else (localInstant s.instant).map (·, created)
  | none => (localInstant modified).map fun t => (t, (Stamp.ofInstant t).toText)

def stem (name : Text) : Text :=
  match Text.before? extension name with
  | some (c :: t) => c :: t
  | _ => name

/-- A song file as it is listed, with the instant that it is sorted by. -/
def ofFile (name : Text) (content : FileContent) (modified : Int) :
    Except ListingError (Int × ListedSong) := do
  let text ← match content.read with
    | .ok t => .ok t
    | .error fault => .error (.undecodable fault)
  let sheet := SongSheet.ofText text
  let (instant, created) ← dated sheet.created modified
  let title := if sheet.title.isEmpty then stem name else sheet.title
  return (instant, ⟨{ sheet with title := title, created := created }, name⟩)

end Song

namespace SongFolder

def isSongName (name : Text) : Bool := (Text.before? Song.extension name).isSome

/-- The names of a folder that end like those of song files. -/
def takenNames (folder : SongFolder) : List Text := (folder.map Prod.fst).filter isSongName

/-- The file that a song is saved in: its name and its text. -/
def newFile (folder : SongFolder) (code : Text) (title prompt : Option Text) (now : Stamp) :
    Except SaveError (Text × Text) :=
  if code.isBlankText then .error .missingCode
  else
    .ok (Song.fileName (Song.titleOf title now) (Song.fallbackTitle now) folder.takenNames,
      (Song.sheetOf code title prompt now).write)

/-- The folder with a song added, and the name of its file. A folder that does not exist yet is
created only if there is something to save. -/
def save (folder : Option SongFolder) (code : Text) (title prompt : Option Text) (now : Stamp) :
    Option SongFolder × Except SaveError Text :=
  match newFile (folder.getD []) code title prompt now with
  | .error e => (folder, .error e)
  | .ok (name, content) =>
    (some (folder.getD [] ++ [(name, .file (.text content) now.instant)]), .ok name)

def readSongs : SongFolder → Except ListingError (List (Int × ListedSong))
  | [] => .ok []
  | (name, .file content modified) :: rest =>
    if isSongName name then do
      let song ← Song.ofFile name content modified
      return song :: (← readSongs rest)
    else readSongs rest
  | (_, .folder) :: rest => readSongs rest

/-- The songs of a folder, newest first; of the same instant in the folder's order. -/
def list (folder : SongFolder) : Except ListingError (List ListedSong) :=
  (readSongs folder).map fun songs =>
    (songs.mergeSort fun a b => decide (b.1 ≤ a.1)).map Prod.snd

end SongFolder

end Composer
