import Composer.Generation.Run
import Composer.Json.Reader

/-!
The server: a request comes in with a method, a path and a body, and is answered by a value, by the
faults of its body, or by the events of a generation task. A few bodies cannot be answered at all,
because the answer would have no text, or what is asked of the provider would have none.
-/

namespace Composer

structure Incoming where
  method : Text
  path : Text
  body : Text
  deriving DecidableEq, Repr, Inhabited

inductive ServerFault where
  /-- The code cannot be judged. -/
  | validation (error : ValidationError)
  /-- A limit of the policy cannot be shown to the provider. -/
  | oversizedLimit
  /-- The answer would show a number that JSON has no text for. -/
  | nonFinite
  /-- The answer would show a string that denotes no text. -/
  | brokenText
  deriving DecidableEq, Repr

inductive Reply where
  | value (status : Nat) (body : Json)
  | invalid (faults : List Fault)
  | stream (task : Task)
  | unanswered (fault : ServerFault)

namespace Reply

def status? : Reply → Option Nat
  | value status _ => some status
  | invalid _ => some 422
  | stream _ => some 200
  | unanswered _ => none

def contentType : Reply → Text
  | stream _ => "text/event-stream; charset=utf-8"
  | _ => "application/json"

def cacheControl? : Reply → Option Text
  | stream _ => some "no-cache"
  | _ => none

def single (name text : Text) : Json := .obj [(name, .str text)]

def notFound : Reply := value 404 (single "detail" "Not Found")

def methodNotAllowed : Reply := value 405 (single "detail" "Method Not Allowed")

def unreadable : Reply := value 400 (single "detail" "There was an error parsing the body")

/-- The reply that reports faults of the body. It shows what was found, which has to have a text. -/
def ofFaults (faults : List Fault) : Reply :=
  if faults.any (·.found.hasNonFinite) then unanswered .nonFinite
  else if faults.any (·.found.hasBrokenStr) then unanswered .brokenText
  else invalid (faults.map (·.under (.key "body")))

def ofRefusal (e : RequestError) : Reply := value e.statusCode (single "error" e.message)

end Reply

/-- What a server works with: settings, an environment, reference material and a provider. -/
structure Server where
  settings : Settings
  environment : Environment
  references : Option ReferenceSource
  deliveries : Deliveries

namespace Server

/-- The server with given settings, which does without reference material when its dataset is of no
use. -/
def withSettings (depth : Nat) (settings : Settings) (environment : Environment)
    (dataset : DatasetFiles) (deliveries : Deliveries) : Server :=
  ⟨settings, environment, ReferenceSource.ofFiles? depth dataset, deliveries⟩

def ofEnvironment (depth : Nat) (environment : Environment) (dataset : DatasetFiles)
    (deliveries : Deliveries) : Except SettingsError Server :=
  (Settings.ofEnvironment environment).map fun settings =>
    withSettings depth settings environment dataset deliveries

def start (s : Server) (r : Request) : Except PreparationError Task :=
  Id.run (Task.ofRequest (fun _ => pure s.deliveries) s.settings s.environment s.references r)

def generate (s : Server) (body : Json) : Reply :=
  match Request.ofJson .modelAttributesType body with
  | .faulty faults => .ofFaults faults
  | .sound r =>
    match s.start r with
    | .error (.refused e) => .ofRefusal e
    | .error .oversizedLimit => .unanswered .oversizedLimit
    | .ok t => .stream t

/-- Code that is to be validated, and overrides of the standard policy. -/
structure ValidationRequest where
  code : Text
  overrides : List (Text × Json)

def ValidationRequest.ofJson (found : Json) : Checked ValidationRequest :=
  (Field.members .modelAttributesType found).andThen fun ms =>
    (fun code overrides (_ : Unit) => ⟨code, overrides⟩)
      <$> Field.required "code" Field.text ms
      <*> Field.defaulted "config" [] (Field.members .dictType) ms
      <*> Field.onlyNamed ["code", "config"] ms

def verdictJson (v : Verdict) : Json :=
  .obj [("valid", .bool v.valid), ("issues", .arr (v.issues.map .str))]

def validation (body : Json) : Reply :=
  match ValidationRequest.ofJson body with
  | .faulty faults => .ofFaults faults
  | .sound r =>
    match Policy.standard.merge r.overrides with
    | .faulty faults => .value 400 (Reply.single "error" (Policy.faultMessage faults))
    | .sound p =>
      match validate p r.code with
      | .ok v => .value 200 (verdictJson v)
      | .error e => .unanswered (.validation e)

/-- The reply to a body, which `reply` gives once the body is read. A body may start with a byte
order mark, and be nested as deeply as the caller of its reader admits. -/
def withBody (depth : Nat) (body : Text) (reply : Json → Reply) : Reply :=
  if body.isEmpty then .ofFaults [⟨.missing, [], .null⟩]
  else
    match Json.read (Json.message depth) ((Text.after? [Json.byteOrderMark] body).getD body) with
    | .ok found => reply found
    | .error (.malformed _ _) => .ofFaults [⟨.jsonInvalid, [], .null⟩]
    | .error _ => .unreadable

/-- The path of a request without what a question mark or a number sign starts, and without slashes
at its end. -/
def place (path : Text) : Text :=
  Text.trimEndWhere (· == '/') (path.takeWhile fun c => c != '?' && c != '#')

def reply (depth : Nat) (s : Server) (i : Incoming) : Reply :=
  let handler : Option (Json → Reply) :=
    if place i.path = ("/api/generate" : Text) then some s.generate
    else if place i.path = ("/api/validate" : Text) then some validation
    else none
  match handler with
  | none => .notFound
  | some handler =>
    if i.method.map Char.toUpper = ("POST" : Text) then withBody depth i.body handler
    else .methodNotAllowed

end Server

end Composer
