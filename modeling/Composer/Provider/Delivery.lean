import Composer.Provider.Failure

/-!
A provider as its consumer sees it: for every request either a refusal or a stream of texts that
ends, or breaks off with something raised. A playback is the reading of one such stream, one text at
a time; its consumer may stop anywhere, and then the clean-up of the stream may raise something too.
A stream that was opened is closed exactly when its playback is over, whether it ran out, broke off
or was released.
-/

namespace Composer

/-- What a provider does with one request. A stream that is opened raises `ending` after its texts,
if anything, and `leaving` when its consumer leaves before that. -/
inductive Delivery where
  | refused (error : Raised)
  | opened (texts : List Text) (ending leaving : Option Raised)
  deriving DecidableEq, Repr, Inhabited

def Delivery.streamed (texts : List Text) (ending : Option Raised) : Delivery :=
  opened texts ending none

def Delivery.size : Delivery → Nat
  | refused _ => 0
  | opened texts _ _ => texts.length

/-- What a provider does with each request, counted from zero. -/
abbrev Deliveries := Nat → Delivery

/-- A provider that refuses every request after the given ones. -/
def Deliveries.ofList (given : List Delivery) (exhausted : Raised) : Deliveries :=
  fun n => given.getD n (.refused exhausted)

inductive Playback where
  | waiting (delivery : Delivery)
  | playing (texts : List Text) (ending leaving : Option Raised)
  | refused
  | closed
  deriving DecidableEq, Repr, Inhabited

inductive PlaybackStep where
  | text (t : Text)
  | ended
  | failed (error : Raised)
  deriving DecidableEq, Repr, Inhabited

namespace Playback

def advance : List Text → (ending leaving : Option Raised) → PlaybackStep × Playback
  | t :: texts, ending, leaving => (.text t, playing texts ending leaving)
  | [], none, _ => (.ended, closed)
  | [], some error, _ => (.failed error, closed)

/-- One step of reading; the first step makes the request. -/
def next : Playback → PlaybackStep × Playback
  | waiting (.refused error) => (.failed error, refused)
  | waiting (.opened texts ending leaving) => advance texts ending leaving
  | playing texts ending leaving => advance texts ending leaving
  | refused => (.ended, refused)
  | closed => (.ended, closed)

/-- The consumer stops: a stream that is open is closed, which may raise something. -/
def release : Playback → Option Raised × Playback
  | playing _ _ leaving => (leaving, closed)
  | p => (none, p)

def isRequested : Playback → Bool
  | waiting _ => false
  | _ => true

def isClosed : Playback → Bool
  | closed => true
  | _ => false

/-- Up to `limit` texts, what was raised if anything was, and the playback after that. -/
def take : (limit : Nat) → Playback → List Text × Option Raised × Playback
  | 0, p => ([], none, p)
  | limit + 1, p =>
    match p.next with
    | (.text t, p') =>
      let (texts, error, p'') := take limit p'
      (t :: texts, error, p'')
    | (.ended, p') => ([], none, p')
    | (.failed error, p') => ([], some error, p')

end Playback

end Composer
