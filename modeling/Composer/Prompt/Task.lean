import Composer.Prompt.History
import Composer.Prompt.Reference

/-!
What is asked of the model for one request: a new composition, a change of existing code, or another
attempt after issues were found.
-/

namespace Composer.Prompt

def new (request : Text) (source : Option ReferenceSource) : Text :=
  "create a strudel composition based on this request:\n\n" ++ request ++ "\n" ++
    optionalReferenceSection request source ++
    Text.unlines [
      "before writing code, decide:",
      "1. what should the listener feel in their body?",
      "2. what mood are you placing them in?",
      "3. what should stay constant vs. evolve?",
      "",
      "then write:",
      "- single javascript code block only",
      "- setcpm(...) at the start",
      "- 3-6 voices with $:",
      "- comments that describe intent, not mechanics",
      "- taste = restraint + intention",
      "- no external samples"]

/-- How many messages of the conversation an edit shows where nothing else is said. -/
def editHistoryLimit : Nat := 6

/-- A change of existing code, with the part of the conversation that is shown already formatted. -/
def editWith (code request history : Text) : Text :=
  Text.unlines [
    "you are editing an existing strudel composition. here is the current code:",
    "",
    "```javascript",
    code,
    "```",
    "",
    "modify this code according to the user's request. return the FULL updated script, not a diff or patch. preserve the overall structure unless the user explicitly asks to change it.",
    "",
    "user request: " ++ request,
    "",
    "requirements:",
    "- output the complete modified code",
    "- keep setcpm(...) at the start",
    "- maintain 3-6 voices with $:",
    "- preserve what works, change what's requested",
    "- single javascript code block only" ++ history]

def edit (code request : Text) (chat : List ChatMessage) (limit : Nat) : Text :=
  editWith code request (History.format (History.truncate limit chat))

/-- A change of existing code with a limit of either sign on the conversation; see
`History.truncate?`. -/
def edit? (code request : Text) (chat : List ChatMessage) (limit : Int) : Option Text :=
  (History.truncate? limit chat).map fun shown => editWith code request (History.format shown)

def retryReminder : Text :=
  "IMPORTANT: do not call methods on strings (e.g., \"1 0 1\".euclidean(...)); apply transforms to patterns, not string literals. Do not use .euclidean() (not available in this build)."

def issueList (issues : List Text) : Text := Text.unlines (issues.map fun issue => "- " ++ issue)

def retry (request : Text) (issues : List Text) : Text :=
  Text.unlines [
    request,
    "",
    "your previous attempt had issues:",
    issueList issues,
    "",
    retryReminder,
    "",
    "return to first principles:",
    "1. what should the listener feel? (be specific)",
    "2. what is the musical intention? (not the technique)",
    "",
    "then simplify:",
    "- reduce to 3-6 voices",
    "- remove randomness that doesn't serve the mood",
    "- remove effects that don't serve the feeling",
    "- subtraction is a sign of taste"]

end Composer.Prompt
