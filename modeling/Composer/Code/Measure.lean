import Composer.Code.Call
import Composer.Code.Token
import Composer.Policy

/-!
What the content rules measure in pattern code: voices, lines, the tempo, foreign samples,
randomness, effects and their strength, speed and pitch. Most measures read the code as plain text,
comments and literals included; only the two that concern literals look at tokens.
-/

namespace Composer.Measure

def voiceMarker : Text := ['$', ':']

def voices (code : Text) : Nat := Text.countWhere (·.startsWith voiceMarker) code

/-- Whether a line, without white space at its ends, is neither empty nor a line comment. -/
def isCodeLine (line : Text) : Bool := !line.isEmpty && !line.startsWith ['/', '/']

/-- The lines with code on them, without white space at their ends. -/
def codeLines (code : Text) : List Text := (code.lines.map Text.strip).filter isCodeLine

def lineCount (code : Text) : Nat := (codeLines code).length

def setsTempo (code : Text) : Bool :=
  Text.anywhere (fun t => (Call.namedFolded? "setcpm" t).isSome) code

/-- The call of the sample loader, of one sample or of many, in any letter case. -/
def sampleCall? (t : Text) : Option Text :=
  (Text.afterFolded? "sample" t).bind fun u =>
    Call.opening? ((Text.afterFolded? ['s'] u).getD u)

/-- Whether samples are loaded from an address at the start of a text. -/
def loadsFromAddress (t : Text) : Bool :=
  match sampleCall? t with
  | none => false
  | some u =>
    match u.skipBlanks with
    | [] => false
    | c :: v =>
      isQuote c &&
        match Text.afterFolded? "http" v with
        | none => false
        | some w => (Text.after? "://" ((Text.afterFolded? ['s'] w).getD w)).isSome

/-- Whether the loading of samples is awaited at the start of a text. -/
def awaitsSamples (t : Text) : Bool :=
  match Text.afterFolded? "await" t with
  | some (c :: u) => isBlank c && (sampleCall? (Text.skipBlanks u)).isSome
  | _ => false

/-- Whether samples that are not built in are loaded anywhere. -/
def loadsForeignSamples (code : Text) : Bool :=
  Text.anywhere (fun t => loadsFromAddress t || awaitsSamples t) code

def chanceMethods : List Text :=
  ["sometimesBy", "sometimes", "rarely", "almostNever", "almostAlways", "choose", "chooseCycles"]

/-- Whether the word `perlin` stands at the start of a text that begins at the border of a word. -/
def isPerlin (t : Text) : Bool :=
  match Text.after? "perlin" t with
  | some (c :: _) => !isWordChar c
  | some [] => true
  | none => false

/-- How often randomness is used: calls of random sources, noise, and methods that work by
chance. -/
def randomUses (code : Text) : Nat :=
  Call.countAtWordBorder (fun t => (Call.oneOf? ["rand", "irand"] t).isSome) none code +
    Call.countAtWordBorder isPerlin none code +
    Text.countWhere (fun t => (Call.methodOf? chanceMethods t).isSome) code

def arguments (method code : Text) : List Binary64 :=
  Call.findAll (Call.methodWithDecimal? method) code

/-- Whether an effect is stronger than the policy allows. -/
def hasExtremeEffects (p : Policy) (code : Text) : Bool :=
  (arguments "delayfeedback" code).any p.maxDelayFeedback.lt ||
    (arguments "room" code).any p.maxRoomSize.lt ||
    (arguments "gain" code).any Policy.maxGain.lt

def effectMethods : List Text :=
  ["lpf", "hpf", "bpf", "delay", "delaytime", "delayfeedback", "room", "size", "dry", "crush",
    "coarse", "shape", "distort", "vowel", "hcutoff", "hresonance", "cutoff", "resonance", "pan",
    "speed"]

def effects (line : Text) : Nat :=
  Text.countWhere (fun t => (Call.spacedMethodOf? effectMethods t).isSome) line

/-- The most effects on a line that opens a voice; none when no line does. -/
def maxEffectsOnVoice (code : Text) : Nat :=
  ((code.lines.filter (·.contains voiceMarker)).map effects).foldr max 0

inductive Bracket where
  | parentheses
  | brackets
  | braces
  deriving DecidableEq, Repr

namespace Bracket

def all : List Bracket := [parentheses, brackets, braces]

def opening : Bracket → Char
  | parentheses => '('
  | brackets => '['
  | braces => '\x7b'

def closing : Bracket → Char
  | parentheses => ')'
  | brackets => ']'
  | braces => '\x7d'

def name : Bracket → Text
  | parentheses => "parentheses"
  | brackets => "brackets"
  | braces => "braces"

end Bracket

/-- The kinds of brackets that are not balanced, each with how many open and how many close. -/
def unbalanced (code : Text) : List (Bracket × Nat × Nat) :=
  (Bracket.all.map fun b => (b, code.countChar b.opening, code.countChar b.closing)).filter
    fun (_, opened, closed) => opened != closed

/-- The literals in which angle brackets, the choice groups of a pattern string, are not
balanced. -/
def unbalancedGroups (code : Text) : List (StringLiteral × Nat × Nat) :=
  (code.literals.map fun l => (l, l.text.countChar '<', l.text.countChar '>')).filter
    fun (_, opened, closed) => opened != closed

inductive UnsupportedMethod where
  | note
  | resonance
  | euclidean
  deriving DecidableEq, Repr

namespace UnsupportedMethod

/-- All of them, in the order in which they are reported. -/
def all : List UnsupportedMethod := [note, resonance, euclidean]

def name : UnsupportedMethod → Text
  | note => "note"
  | resonance => "resonance"
  | euclidean => "euclidean"

end UnsupportedMethod

/-- The unsupported methods that are called outside comments. -/
def unsupportedMethods (code : Text) : List UnsupportedMethod :=
  UnsupportedMethod.all.filter fun m =>
    Text.anywhere (fun t => (Call.spacedMethodOf? [m.name] t).isSome) code.withoutComments

/-- Whether a method is called on a string literal outside comments: on one between quotation marks,
not backquotes, that is terminated. -/
def callsMethodOnString (code : Text) : Bool :=
  let bare := code.withoutComments
  bare.locatedLiterals.any fun (position, l) =>
    l.quote != backquote && l.terminated &&
      (Call.chainedMethod? (bare.drop (position + l.source.length))).isSome

def fastFactors (code : Text) : List Text := Call.findAll (Call.methodWithDigits? "fast") code

/-- Whether a note of the ninth octave stands at the start of a text. -/
def isNinthOctave : Text → Bool
  | c :: t =>
    'a' ≤ c && c ≤ 'g' &&
      match t with
      | '9' :: _ => true
      | '#' :: '9' :: _ => true
      | 'b' :: '9' :: _ => true
      | _ => false
  | [] => false

/-- Whether `note` is called on a string with a note of the ninth octave. -/
def hasNinthOctave (code : Text) : Bool :=
  (Call.findAll Call.noteWithString? code).any fun t => Text.anywhere isNinthOctave t.lower

end Composer.Measure
