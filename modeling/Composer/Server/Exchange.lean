import Composer.Json.Printer
import Composer.Server.Reply
import Composer.Text.Utf8

/-!
Requests and replies as they pass between a client and the server. A request has a first line with
the method and the path, header lines up to an empty one, and a body whose length in bytes a header
gives. A reply has a first line with the status, header lines, an empty line and the body.
-/

namespace Composer

/-- What comes before the body of a request: method, path, and how many bytes the body has. -/
structure RequestHead where
  method : Text
  path : Text
  bodyLength : Nat
  deriving DecidableEq, Repr, Inhabited

namespace RequestHead

/-- The name of the header with the length of the body, in lower case. -/
def lengthName : Text := "content-length"

/-- The length of the body that a header line gives, if it is the one that does. -/
def lengthOf? (line : Text) : Option Nat :=
  (Text.cut? [':'] line).bind fun (name, value) =>
    let digits := value.strip
    if (name.strip.map Char.toLower == lengthName) && digits.all isAsciiDigit then
      some (digitsValue digits)
    else none

/-- The head in the lines before the empty one. Without a length there is no body. -/
def ofLines? : List Text → Option RequestHead
  | [] => none
  | first :: headers =>
    match first.words with
    | method :: path :: _ => some ⟨method, path, (headers.findSome? lengthOf?).getD 0⟩
    | _ => none

end RequestHead

namespace Server

/-- The reply to a request with a body in bytes; a body that is no text breaks its reader. -/
def replyToBytes (depth : Nat) (s : Server) (h : RequestHead) (body : List Nat) : Reply :=
  match Utf8.decode body with
  | .ok t => s.reply depth ⟨h.method, h.path, t⟩
  | .error _ =>
    match s.reply depth ⟨h.method, h.path, []⟩ with
    | .value status v => .value status v
    | _ => .unreadable

end Server

namespace Reply

def faultJson (f : Fault) : Json :=
  .obj [("type", .str f.kind.name),
    ("loc", .arr (f.path.map fun
      | .key name => .str name
      | .index n => .int n))]

def bodyText : Reply → Text
  | value _ v => v.write
  | invalid faults => Json.write (.obj [("detail", .arr (faults.map faultJson))])
  | stream t => t.body
  | unanswered _ => "Internal Server Error"

/-- The lines before the body. What has no status of its own is an error of the server. -/
def headLines (r : Reply) : List Text :=
  let first : List Text :=
    ["HTTP/1.1 " ++ Text.ofNat (r.status?.getD 500), "content-type: " ++ r.contentType]
  let stored : List Text := r.cacheControl?.toList.map fun value => "cache-control: " ++ value
  let last : List Text := ["connection: close", []]
  first ++ stored ++ last

def text (r : Reply) : Text := (r.headLines.flatMap fun line => line ++ ['\r', '\n']) ++ r.bodyText

end Reply

end Composer
