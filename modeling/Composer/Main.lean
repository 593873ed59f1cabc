import Composer.Command.Run
import Composer.Log.Entry
import Composer.Server.Exchange
import Std.Time.DateTime.Timestamp

/-!
The command line. What a command needs of its surroundings is looked up here, and what it does is
carried out: printing, writing the file of a song, answering a client on the standard streams. No
gateway is installed, so a generation ends with the failure that says so.
-/

namespace Composer.CommandLine

/-- How deeply what is read may be nested: as deeply as the stack of a short call admits. -/
def depth : Nat := 960

def now : IO Stamp := do
  let nanoseconds := (← Std.Time.Timestamp.now).toNanosecondsSinceUnixEpoch
  return .ofInstant (nanoseconds.toInt / 1000)

/-- The names of all variables that mean something to the program. -/
def variableNames : List Text :=
  Provider.anthropic.keyVariables ++ Provider.openai.keyVariables ++
    (["AUDIAL_MODEL", "AUDIAL_MAX_TOKENS", "AUDIAL_CHAT_HISTORY_LIMIT", "AUDIAL_HOST",
      "AUDIAL_PORT", "AUDIAL_MAX_VOICES", "AUDIAL_MAX_LINES", "AUDIAL_MAX_RANDOM_USAGE",
      "AUDIAL_REFERENCE_DATA", "AUDIAL_LOG_DIR", "AUDIAL_DEBUG", "HOME"] : List Text)

/-- The environment, as far as it means something to the program. -/
def environment : IO Environment :=
  variableNames.filterMapM fun name => do
    return (← IO.getEnv (String.ofList name)).map fun value => (name, value.toList)

def place (path : Text) := System.mkFilePath [String.ofList path]

def contentAt (path : Text) : IO (Except FileFault FileContent) := do
  if ← (place path).isDir then return .error .isFolder
  try
    let bytes ← IO.FS.readBinFile (place path)
    return .ok (.ofBytes (bytes.toList.map UInt8.toNat))
  catch
    | .inappropriateType .. => return .error .notFolder
    | _ => return .error .missing

def entryAt (folder name : Text) : IO (Text × FolderEntry) := do
  let path := Path.inside folder name
  match ← contentAt path with
  | .error _ => return (name, .folder)
  | .ok content =>
    let modified := (← (place path).metadata).modified
    return (name, .file content (modified.sec * Stamp.perSecond + modified.nsec.toNat / 1000))

def folderAt (path : Text) : IO (Except FileFault (Option SongFolder)) := do
  if ← (place path).isDir then
    let names := (← (place path).readDir).toList.map fun entry => entry.fileName.toList
    return .ok (some (← names.mapM (entryAt path)))
  match ← contentAt path with
  | .ok _ => return .error .alreadyThere
  | .error .missing => return .ok none
  | .error fault => return .error fault

/-- The files of the reference dataset that the environment names. -/
def dataset (env : Environment) : IO DatasetFiles := do
  match ReferenceLibrary.folder? none env with
  | none => return ⟨none, none⟩
  | some folder =>
    let file (name : Text) : IO (Option FileContent) := do
      return (← contentAt (Path.inside folder name)).toOption
    return ⟨← file DatasetFiles.songsName, ← file DatasetFiles.priorsName⟩

/-- Everything on a stream. -/
partial def readAll (input : IO.FS.Stream) : IO Text := do
  let line ← input.getLine
  if line.isEmpty then return [] else return line.toList ++ (← readAll input)

def surroundings (env : Environment) (c : Command) : IO Surroundings := do
  let (path, folder) : Text × Option Text :=
    match c with
    | .validate path _ => (path, none)
    | .generate _ _ _ edited folder _ => (edited.getD [], folder)
    | .songs folder => ([], some folder)
    | .serve _ _ => ([], none)
  let input ← if path = Command.inputPath then readAll (← IO.getStdin) else pure []
  return {
    environment := env
    input := input
    file := ← contentAt path
    folder := ← folder.elim (pure (.ok none)) folderAt
    dataset := ← dataset env
    deliveries := Gateway.deliveries none
    now := ← now
    depth := depth }

def writeFile (path content : Text) : IO Unit := do
  (place path).parent.forM IO.FS.createDirAll
  IO.FS.writeFile (place path) (String.ofList content)

def log (env : Environment) (e : Log.Entry) : IO Unit := do
  let debug := (env.value? "AUDIAL_DEBUG").isSome
  (Log.console debug [e]).forM fun t => do (← IO.getStderr).putStrLn (String.ofList t)
  match Log.path? ((env.lookup "HOME".toList).getD []) env with
  | none => return
  | some path =>
    try
      (place path).parent.forM IO.FS.createDirAll
      let file ← IO.FS.Handle.mk (place path) .append
      let time ← now
      (Log.file (time.dayText ++ ' ' :: time.clockText) [e]).forM fun t =>
        file.putStrLn (String.ofList t)
    catch _ => return

/-- The lines of a request up to the empty one. -/
partial def readHead (input : IO.FS.Stream) : IO (List Text) := do
  let line := Text.strip (← input.getLine).toList
  if line.isEmpty then return [] else return line :: (← readHead input)

/-- As many bytes of a request as its body has. -/
partial def readBody (input : IO.FS.Stream) (count : Nat) : IO (List Nat) := do
  if count = 0 then return []
  let bytes := (← input.read count.toUSize).toList.map UInt8.toNat
  if bytes.isEmpty then return [] else return bytes ++ (← readBody input (count - bytes.length))

def serve (server : Server) : IO Unit := do
  let input ← IO.getStdin
  match RequestHead.ofLines? (← readHead input) with
  | none => return
  | some head =>
    let output ← IO.getStdout
    let body ← readBody input head.bodyLength
    output.putStr (String.ofList (server.replyToBytes depth head body).text)
    output.flush

def carryOut (s : Surroundings) (o : Outcome) : IO UInt32 := do
  IO.print (String.ofList o.printed)
  match o.written with
  | some (path, content) => writeFile path content
  | none => pure ()
  match o.failure with
  | some e => log s.environment ⟨30, "audial.cli", "audial CLI failed: " ++ e.message⟩
  | none => pure ()
  match o.served, Server.ofEnvironment s.depth s.environment s.dataset s.deliveries with
  | some _, .ok server => serve server
  | _, _ => pure ()
  return o.code.toUInt32

def usage : String := "usage: audial [-h] validate|generate|songs|serve ..."

end Composer.CommandLine

open Composer CommandLine in
/-- Carries out the command that the arguments ask for. -/
def main (arguments : List String) : IO UInt32 := do
  match Command.ofArguments (arguments.map String.toList) with
  | .error .help => do
    IO.println usage
    return 0
  | .error .misused => do
    (← IO.getStderr).putStrLn usage
    return 2
  | .ok command => do
    let s ← surroundings (← environment) command
    carryOut s (Command.run s command)
