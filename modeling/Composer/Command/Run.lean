import Composer.Command.Basic
import Composer.Console.Page
import Composer.Generation.Call
import Composer.Path
import Composer.Server.Reply
import Composer.Song.Folder
import Composer.Text.Quoted

/-!
Carrying out a command. Everything that a command needs of its surroundings is given: the file and
the folder that it names, the environment, the reference dataset, a provider and the time. What it
does is a value: what it prints, the file that it writes, and the address that it serves at.
Whatever goes wrong is printed in one place, and the command fails.
-/

namespace Composer

inductive FileFault where
  | missing
  | alreadyThere
  | notFolder
  | isFolder
  deriving DecidableEq, Repr

def FileFault.words : FileFault → Text
  | missing => "[Errno 2] No such file or directory"
  | alreadyThere => "[Errno 17] File exists"
  | notFolder => "[Errno 20] Not a directory"
  | isFolder => "[Errno 21] Is a directory"

/-- What a command finds around it. The file is the one that the command reads, the folder the one
that it lists or saves to, none when it is not there yet. -/
structure Surroundings where
  environment : Environment
  input : Text
  file : Except FileFault FileContent
  folder : Except FileFault (Option SongFolder)
  dataset : DatasetFiles
  deliveries : Deliveries
  now : Stamp
  /-- How deeply what is read may be nested. -/
  depth : Nat

inductive CommandError where
  | settings (error : SettingsError)
  | file (fault : FileFault) (path : Text)
  | undecodable (fault : Utf8.Fault)
  | extraction (fault : ExtractionFault)
  | policy (faults : List Fault)
  | validation (error : ValidationError)
  | listing (error : ListingError)
  | dataset (error : DatasetError)
  | request (error : PreparationError)
  | task (error : TaskError)
  | taskFault (fault : TaskFault)
  | save (error : SaveError)
  | markup (fault : Markup.Fault)

def CommandError.message : CommandError → Text
  | settings e => e.message
  | file fault path => fault.words ++ ": " ++ Text.quoted (Path.normal path)
  | undecodable fault => fault.message
  | extraction fault => fault.message
  | policy faults => Policy.faultMessage faults
  | validation e => e.message
  | listing e => e.message
  | dataset e => e.message
  | request e => e.message
  | task e => e.message
  | taskFault f => f.message
  | save e => e.message
  | markup fault => fault.message

structure Outcome where
  /-- The exit code. -/
  code : Nat
  printed : Text
  /-- The file that is written: its path and its text. -/
  written : Option (Text × Text) := none
  /-- The address that is served at: host and port. -/
  served : Option (Text × Int) := none
  /-- The task that was run. -/
  task : Option Task := none
  /-- What went wrong. -/
  failure : Option CommandError := none

def Outcome.printing (code : Nat) (printed : Text) : Outcome where
  code := code
  printed := printed

namespace Command

/-- The code in a text: the text itself when there is no fence in it, the code of a song sheet when
it starts like one, and else the code of a response. -/
def codeOf (t : Text) : Except ExtractionFault Text :=
  if !t.contains Fence.mark then .ok t
  else if t.skipBlanks.startsWith SongSheet.titleStart then .ok (SongSheet.ofText t).code
  else Response.artifact t

def inputPath : Text := "-"

def textAt (s : Surroundings) (path : Text) : Except CommandError Text :=
  if path = inputPath then .ok s.input
  else
    match s.file with
    | .error fault => .error (.file fault path)
    | .ok content => content.read.mapError .undecodable

def codeAt (s : Surroundings) (path : Text) : Except CommandError Text := do
  (codeOf (← textAt s path)).mapError .extraction

def verdictText (v : Verdict) : Text :=
  if v.valid then Console.line "valid"
  else
    Console.line (Text.ofNat v.issues.length ++ " issue(s):") ++
      v.issues.flatMap fun issue => Console.line ("- " ++ issue)

def runValidate (s : Surroundings) (path : Text) (overrides : List (Text × Json)) :
    Except CommandError Outcome := do
  let code ← codeAt s path
  let p ← (Policy.standard.merge overrides).toExcept.mapError .policy
  let v ← (Composer.validate p code).mapError .validation
  return .printing (if v.valid then 0 else 1) (verdictText v)

def songLine (s : ListedSong) : Text :=
  Console.line (s.sheet.created ++ "  " ++ s.sheet.title ++ "  (" ++ s.fileName ++ ")")

/-- The listing of a folder; what is no folder has no songs. -/
def runSongs (s : Surroundings) : Except CommandError Outcome := do
  let folder :=
    match s.folder with
    | .ok (some entries) => entries
    | _ => []
  let songs ← folder.list.mapError .listing
  return .printing 0
    (if songs.isEmpty then Console.line "No saved songs." else songs.flatMap songLine)

def eventText : Event → Text
  | .delta t => Console.shown t
  | .status t => Text.lineFeed :: Console.line t
  | .clear => Console.rule "retry"
  | _ => []

/-- The request that a command line makes. Without code, or with empty code, it asks for something
new. -/
def requestOf (prompt : Text) (model apiKey code : Option Text) : Request where
  prompt := some prompt
  mode := if (nonEmpty code).isSome then .edit else .new
  currentCode := code
  chatHistory := []
  model := model
  apiKey := apiKey

/-- The file that a finished composition is saved in, below the folder that was named. -/
def savedFile (s : Surroundings) (folder : Text) (title : Option Text) (prompt code : Text) :
    Except CommandError (Text × Text) := do
  let entries ← s.folder.mapError fun fault => .file fault folder
  let (name, content) ←
    (SongFolder.newFile (entries.getD []) code title (some prompt) s.now).mapError .save
  return (Path.inside folder name, content)

/-- The server that a command works with. Unlike the one that answers requests it insists on a
dataset that can be read, if there is one. -/
def serverOf (s : Surroundings) (settings : Settings) : Except CommandError Server := do
  let library ← (ReferenceLibrary.loadIfPresent s.depth s.dataset).mapError .dataset
  return ⟨settings, s.environment, library.map .ofLibrary, s.deliveries⟩

def startGenerate (s : Surroundings) (settings : Settings) (prompt : Text)
    (model apiKey edited : Option Text) : Except CommandError Task := do
  let code ← edited.mapM (codeAt s)
  let server ← serverOf s settings
  (server.start (requestOf prompt model apiKey code)).mapError .request

/-- The outcome of a command that failed after something had been printed. -/
def failed (printed : Text) (e : CommandError) : Outcome :=
  let markup := "[red]error:[/red] " ++ Markup.escape e.message
  let told :=
    match Markup.plain markup with
    | .ok t => t
    | .error _ => "error: " ++ e.message
  { Outcome.printing 1 (printed ++ Console.line told) with failure := some e }

/-- The end of a run that went through, after something had been printed: the composition is saved
if a folder was named, and the file is told. -/
def runSave (s : Surroundings) (folder title : Option Text) (prompt code printed : Text) :
    Outcome :=
  match folder with
  | none => .printing 0 printed
  | some folder =>
    match savedFile s folder title prompt code with
    | .error e => failed printed e
    | .ok file =>
      let outcome : Outcome :=
        match Markup.plain ("Saved to " ++ file.1) with
        | .ok t => .printing 0 (printed ++ Console.line t)
        | .error fault => failed printed (.markup fault)
      { outcome with written := some file }

/-- The run of a task: its events are printed as they come, and what became of it at the end. -/
def runTask (s : Surroundings) (folder title : Option Text) (prompt : Text) (t : Task) : Outcome :=
  let r := t.drain
  let events := r.observed.flatMap fun o => eventText o.event
  let ended := events ++ [Text.lineFeed]
  let outcome : Outcome :=
    match Task.resultOf r with
    | .raised fault => failed events (.taskFault fault)
    | .failed e => failed ended (.task e)
    | .code extraction => runSave s folder title prompt (extraction.code?.getD []) ended
  { outcome with task := some r.task }

def runWith (s : Surroundings) (settings : Settings) : Command → Except CommandError Outcome
  | validate path overrides => runValidate s path overrides
  | generate prompt model apiKey edited folder title =>
    (startGenerate s settings prompt model apiKey edited).map (runTask s folder title prompt)
  | songs _ => runSongs s
  | serve host port =>
    .ok { Outcome.printing 0 [] with
      served := some (host.getD settings.host, port.getD settings.port) }

def run (s : Surroundings) (c : Command) : Outcome :=
  let outcome : Except CommandError Outcome := do
    let settings ← (Settings.ofEnvironment s.environment).mapError .settings
    runWith s settings c
  match outcome with
  | .ok o => o
  | .error e => failed [] e

end Command

end Composer
