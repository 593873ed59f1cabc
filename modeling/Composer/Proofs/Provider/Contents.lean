import Composer.Provider.Answer

/-!
What an answer of the gateway holds, read off its chunks one by one: the strings before the first
fault, and the fault. A chunk has a string when the first of its choices has content that is a
string and not empty. It is at fault when something was raised in its place, or when its choices are
there but are no sequence.
-/

namespace Composer.Gateway

namespace Chunk

def text? : Chunk → Option WideText
  | raised _ => none
  | value v _ =>
    match part "choices" v with
    | .arr (choice :: _) =>
      match part "content" (part "delta" choice) with
      | .str (c :: t) => some (Text.widen (c :: t))
      | .brokenStr t => some t.codePoints
      | _ => none
    | _ => none

def fault? : Chunk → Option Raised
  | raised error => some error
  | value v kind =>
    match part "choices" v with
    | .bool true => some (.other "TypeError" (noItemMessage "bool"))
    | .int n => if n = 0 then none else some (.other "TypeError" (noItemMessage "int"))
    | .float x => if x.isZero then none else some (.other "TypeError" (noItemMessage "float"))
    | .obj _ => some (.other "TypeError" (noItemMessage kind))
    | _ => none

end Chunk

namespace Answer

/-- The strings of an answer, in order, up to its first fault. -/
def texts : Answer → List WideText
  | raised _ => []
  | chunks given => (given.takeWhile (·.fault?.isNone)).filterMap Chunk.text?

/-- The first fault of an answer, or what was raised instead of one. -/
def fault? : Answer → Option Raised
  | raised error => some error
  | chunks given => given.findSome? Chunk.fault?

/-- An answer that can be read at all. -/
def isGiven : Answer → Bool
  | raised _ => false
  | chunks _ => true

end Answer

theorem chunkText_eq (v : Json) (kind : Text) : chunkText kind v =
    match (Chunk.value v kind).fault? with
    | some error => .error error.message
    | none => .ok ((Chunk.value v kind).text?.getD []) := by
  simp only [chunkText, Chunk.fault?, Chunk.text?]
  cases hChoices : part "choices" v with
  | null | brokenStr _ => rfl
  | bool b => cases b <;> rfl
  | int n =>
      by_cases hZero : n = 0 <;> simp [isVoid, hZero, firstItem, Except.map, Raised.message]
  | float x =>
      cases hZero : x.isZero <;> simp [isVoid, hZero, firstItem, Except.map, Raised.message]
  | str t => cases t <;> rfl
  | obj ms => rfl
  | arr items =>
      cases items with
      | nil => rfl
      | cons choice more =>
          simp only [isVoid, List.isEmpty_cons, firstItem, Except.map]
          cases part "content" (part "delta" choice) with
          | str t => cases t <;> rfl
          | _ => rfl

section
variable {given : List Chunk}

theorem texts_cons_of_fault {c : Chunk} {error : Raised} (h : c.fault? = some error) :
    (Answer.chunks (c :: given)).texts = [] := by
  simp [Answer.texts, h]

theorem fault?_cons_of_fault {c : Chunk} {error : Raised} (h : c.fault? = some error) :
    (Answer.chunks (c :: given)).fault? = some error := by
  simp [Answer.fault?, h]

theorem texts_cons {c : Chunk} (h : c.fault? = none) :
    (Answer.chunks (c :: given)).texts = c.text?.toList ++ (Answer.chunks given).texts := by
  cases hText : c.text? <;> simp [Answer.texts, h, hText]

theorem fault?_cons {c : Chunk} (h : c.fault? = none) :
    (Answer.chunks (c :: given)).fault? = (Answer.chunks given).fault? := by
  simp [Answer.fault?, h]

end

/-- A chunk without a string gives nothing, and one with a string gives it. -/
theorem text?_eq {c : Chunk} : c.text? = none ∨ ∃ s, c.text? = some s ∧ s.isEmpty = false := by
  unfold Chunk.text?
  split
  · exact .inl rfl
  · split
    · split
      · next first t _ => exact .inr ⟨Text.widen (first :: t), rfl, rfl⟩
      · next t _ => exact .inr ⟨t.codePoints, rfl, t.isEmpty_codePoints⟩
      · exact .inl rfl
    · exact .inl rfl

theorem textsOf_eq (given : List Chunk) :
    textsOf given = ((Answer.chunks given).texts, (Answer.chunks given).fault?.map reported) := by
  induction given with
  | nil => rfl
  | cons c given ih =>
      cases c with
      | raised error =>
          rw [texts_cons_of_fault rfl, fault?_cons_of_fault rfl]
          rfl
      | value v kind =>
          rw [textsOf, chunkText_eq]
          cases hFault : (Chunk.value v kind).fault? with
          | some error =>
              rw [texts_cons_of_fault hFault, fault?_cons_of_fault hFault]
              rfl
          | none =>
              rw [texts_cons hFault, fault?_cons hFault]
              simp only [ih]
              rcases text?_eq (c := .value v kind) with hText | ⟨t, hText, hFilled⟩
              · simp [hText]
              · simp [hText, hFilled]

/-- What a task is delivered: the strings of an answer as texts, and its fault as it is reported. -/
theorem Answer.delivery_eq (answer : Answer) :
    answer.delivery =
      match answer with
      | raised error => .refused (reported error)
      | chunks _ =>
        .streamed (answer.texts.map WideText.legible) (answer.fault?.map reported) := by
  cases answer with
  | raised error => rfl
  | chunks given => simp only [delivery, textsOf_eq]

end Composer.Gateway
