import Composer.Text.Basic

/-!
The stages of a generation task and the steps between them. A task streams an answer, validates it,
and accepts it or streams once more; a second answer is not validated again. Streaming and
validating may fail. Three stages are final.
-/

namespace Composer

inductive Stage where
  | idle
  | streaming
  | validating
  | retrying
  | accepted
  | done
  | failed
  deriving DecidableEq, Repr, Inhabited

namespace Stage

def name : Stage → Text
  | idle => "idle"
  | streaming => "streaming"
  | validating => "validating"
  | retrying => "retrying"
  | accepted => "accepted"
  | done => "done"
  | failed => "failed"

def all : List Stage := [idle, streaming, validating, retrying, accepted, done, failed]

def successors : Stage → List Stage
  | idle => [streaming]
  | streaming => [validating, done, failed]
  | validating => [accepted, retrying, failed]
  | retrying => [streaming]
  | accepted => []
  | done => []
  | failed => []

def isFinal : Stage → Bool
  | accepted => true
  | done => true
  | failed => true
  | _ => false

theorem isFinal_iff_successors_eq_nil (s : Stage) : s.isFinal ↔ s.successors = [] := by
  cases s <;> decide

end Stage

end Composer
