import Composer.Path
import Composer.Provider.Failure
import Composer.Settings

/-!
The log: entries on the console and in a file, and notes on failures in the file. Entries come from
named sources; only those of this program are kept. The time of day is given by whoever writes the
log.
-/

namespace Composer.Log

/-- An entry: how grave it is, where it comes from, and what it says. -/
structure Entry where
  level : Int
  source : Text
  message : Text
  deriving DecidableEq, Repr, Inhabited

/-- The named levels: the value, the name in the file and the mark on the console. -/
def levels : List (Int × Text × Text) :=
  [(10, "DEBUG", "[debug]"), (20, "INFO", "[info]"), (30, "WARNING", "[warn]"),
    (40, "ERROR", "[error]"), (50, "CRITICAL", "[fatal]")]

/-- The mark of a level on the console; a level without name has none. -/
def mark (level : Int) : Text := ((levels.lookup level).map Prod.snd).getD []

def levelName (level : Int) : Text :=
  ((levels.lookup level).map Prod.fst).getD ("Level " ++ Text.ofInt level)

/-- The name that the sources of this program start with. -/
def program : Text := "audial"

def isOwn (source : Text) : Bool := source == program || source.startsWith (program ++ ['.'])

def fileLevel : Int := 10

def consoleLevel (debug : Bool) : Int := if debug then 10 else 20

def kept (level : Int) (entries : List Entry) : List Entry :=
  entries.filter fun e => isOwn e.source && decide (level ≤ e.level)

def Entry.told (e : Entry) : Text := e.source ++ ": " ++ e.message

def Entry.consoleText (e : Entry) : Text := mark e.level ++ ' ' :: e.told

def Entry.fileText (time : Text) (e : Entry) : Text :=
  time ++ " [" ++ levelName e.level ++ "] " ++ e.told

def console (debug : Bool) (entries : List Entry) : List Text :=
  (kept (consoleLevel debug) entries).map Entry.consoleText

def file (time : Text) (entries : List Entry) : List Text :=
  (kept fileLevel entries).map (Entry.fileText time)

def ownKinds : List Text :=
  ["AudialError", "ProviderAuthError", "ProviderModelError", "LLMInferenceError",
    "ModelNotAvailableError"]

def fullKind (kind : Text) : Text :=
  if ownKinds.contains kind then "audial.errors." ++ kind else kind

/-- A note on a failure: what failed and how, once more with the full name, and an empty line. -/
def failureNote (time context : Text) (r : Raised) : List Text :=
  ["[" ++ time ++ "] " ++ context ++ " failed: " ++ r.kindName ++ ": " ++ r.message,
    if r.message.isEmpty then fullKind r.kindName else fullKind r.kindName ++ ": " ++ r.message, []]

def fileName : Text := "audial.log"

/-- The folder of the log file: the one that the environment names, or one of its own at home. -/
def folder? (home : Text) (env : Environment) : Option Text :=
  match env.lookup ("AUDIAL_LOG_DIR" : Text) with
  | some (c :: path) => Path.atHome? home (c :: path)
  | _ => some (Path.inside (Path.inside (Path.inside home ".cache") program) "logs")

/-- The path of the log file; none when it should be at somebody else's home. -/
def path? (home : Text) (env : Environment) : Option Text :=
  (folder? home env).map fun folder => Path.inside folder fileName

end Composer.Log
