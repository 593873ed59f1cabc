import Composer.Proofs.Provider.Contents
import Composer.Provider.Gateway
import Mathlib.Data.List.Induction

/-!
Conversations with the gateway, for every answer and every reader. What a conversation comes to
depends on the answer, on how often its reader pulls, and on whether the reader closes it. The
strings are those of the answer as far as they were pulled; a fault is reported when it is reached;
an answer that was given is closed once on every way out.
-/

namespace Composer.Gateway

/-- How often an answer is closed on the way out. -/
def Closing.calls : Closing → Nat
  | absent => 0
  | succeeds => 1
  | fails => 1

namespace Conversation

section
variable (c : Conversation) (closing : Closing)

theorem leave_eq : c.leave closing =
    { c with stream := .over, closings := c.closings.map (· + closing.calls) } := by
  cases closing with
  | absent => simp [leave, finish, Closing.calls]
  | succeeds => rfl
  | fails => rfl

/-- What becomes of a conversation that takes up these chunks. -/
inductive Resumes (rest : List Chunk) : Conversation → Prop where
  | text {s : WideText} {later : List Chunk}
      (hTexts : (Answer.chunks rest).texts = s :: (Answer.chunks later).texts)
      (hFault : (Answer.chunks later).fault? = (Answer.chunks rest).fault?) :
      Resumes rest { c with received := c.received ++ [s], stream := .suspended later closing }
  | ended (hTexts : (Answer.chunks rest).texts = []) (hFault : (Answer.chunks rest).fault? = none) :
      Resumes rest (c.leave closing)
  | brokeOff {error : Raised} (hTexts : (Answer.chunks rest).texts = [])
      (hFault : (Answer.chunks rest).fault? = some error) :
      Resumes rest ((c.breakDown (.raised (reported error))).leave closing)

theorem resumes (rest : List Chunk) : Resumes c closing rest (c.resume closing rest) := by
  induction rest with
  | nil => exact .ended rfl rfl
  | cons chunk rest ih =>
      cases chunk with
      | raised error => exact .brokeOff (texts_cons_of_fault rfl) (fault?_cons_of_fault rfl)
      | value v kind =>
          rw [resume, chunkText_eq]
          cases hFault : (Chunk.value v kind).fault? with
          | some error =>
              change Resumes c closing _ ((c.breakDown (.raised (reported error))).leave closing)
              exact .brokeOff (texts_cons_of_fault hFault) (fault?_cons_of_fault hFault)
          | none =>
              have hTexts : (Answer.chunks (.value v kind :: rest)).texts = _ := texts_cons hFault
              have hSame : (Answer.chunks (.value v kind :: rest)).fault? = _ := fault?_cons hFault
              rcases text?_eq (c := .value v kind) with hNone | ⟨t, hText, hFilled⟩
              · -- a chunk without a string leaves everything to the chunks after it
                rw [hNone, Option.toList_none, List.nil_append] at hTexts
                simp only [hNone, Option.getD_none, List.isEmpty_nil, if_true]
                generalize c.resume closing rest = d at ih ⊢
                cases ih with
                | text hLater hLaterFault =>
                    exact .text (hTexts.trans hLater) (hLaterFault.trans hSame.symm)
                | ended hNil hEnd => exact .ended (hTexts.trans hNil) (hSame.trans hEnd)
                | brokeOff hNil hError => exact .brokeOff (hTexts.trans hNil) (hSame.trans hError)
              · simp only [hText, Option.getD_some, hFilled, Bool.false_eq_true, if_false]
                rw [hText] at hTexts
                exact .text hTexts hSame.symm

end

section
variable {s : Script} {call : Call} {pulls : Nat} {closed : Bool} {c : Conversation}

/-- An answer that was given, read up to as many texts as were pulled. -/
structure Reading (answer : Answer) (pulls : Nat) (rest : List Chunk) : Prop where
  given : answer.isGiven
  within : pulls ≤ answer.texts.length
  texts : (Answer.chunks rest).texts = answer.texts.drop pulls
  fault : (Answer.chunks rest).fault? = answer.fault?

/-- Where the reader stands that pulled so often and closed the conversation or did not. -/
inductive Position (answer : Answer) (closing : Closing) (pulls : Nat) (closed : Bool) :
    TextStream → Prop where
  | unasked (hPulls : pulls = 0) (hOpen : closed = false) :
      Position answer closing pulls closed .unasked
  | suspended {rest : List Chunk} (hPulls : 0 < pulls) (hOpen : closed = false)
      (hReading : Reading answer pulls rest) :
      Position answer closing pulls closed (.suspended rest closing)
  | finished (hOver : closed ∨ answer.texts.length < pulls) :
      Position answer closing pulls closed .over

/-- What a conversation has come to. Every field is told from the answer, the number of pulls, and
whether the conversation was closed. -/
structure Stands (s : Script) (call : Call) (pulls : Nat) (closed : Bool) (c : Conversation) :
    Prop where
  position : Position (s.answer 0) s.closing pulls closed c.stream
  calls : c.calls = if pulls = 0 then [] else [call]
  received : c.received = (s.answer 0).texts.take pulls
  breakdown : c.breakdown =
    if pulls ≤ (s.answer 0).texts.length then none
    else (s.answer 0).fault?.map fun error => .raised (reported error)
  closings : c.closings =
    if pulls = 0 ∨ (s.answer 0).isGiven = false then []
    else if closed ∨ (s.answer 0).texts.length < pulls then [s.closing.calls] else [0]
  quiet : c.quiet = (decide (0 < pulls) && !s.frozen)

theorem stands_nil : Stands s call 0 false {} where
  position := .unasked rfl rfl
  calls := rfl
  received := rfl
  breakdown := by simp
  closings := by simp
  quiet := rfl

/-- The end of an answer that is being read, with what was found there. -/
theorem Reading.stands_leave {rest : List Chunk} (hReading : Reading (s.answer 0) pulls rest)
    (hNil : (Answer.chunks rest).texts = [])
    (hCalls : c.calls = [call]) (hReceived : c.received = (s.answer 0).texts.take pulls)
    (hBreakdown : c.breakdown = (s.answer 0).fault?.map fun error => .raised (reported error))
    (hClosings : c.closings = [0]) (hQuiet : c.quiet = !s.frozen) :
    Stands s call (pulls + 1) false (c.leave s.closing) := by
  have hNoMore : (s.answer 0).texts.length ≤ pulls :=
    List.drop_eq_nil_iff.1 (hReading.texts.symm.trans hNil)
  have hOver : (s.answer 0).texts.length < pulls + 1 := Nat.lt_succ_of_le hNoMore
  rw [leave_eq]
  constructor
  case position => exact .finished (.inr hOver)
  case calls => simpa using hCalls
  case received =>
    rw [List.take_of_length_le (Nat.le_of_lt hOver)]
    exact hReceived.trans (List.take_of_length_le hNoMore)
  case breakdown => simpa [Nat.not_le.2 hOver] using hBreakdown
  case closings => simp [hReading.given, hClosings, hOver]
  case quiet => simpa using hQuiet

/-- The next string of an answer that is being read, or the end of it. -/
theorem Reading.stands_resume {rest : List Chunk} (hReading : Reading (s.answer 0) pulls rest)
    (hCalls : c.calls = [call]) (hReceived : c.received = (s.answer 0).texts.take pulls)
    (hBreakdown : c.breakdown = none) (hClosings : c.closings = [0])
    (hQuiet : c.quiet = !s.frozen) :
    Stands s call (pulls + 1) false (c.resume s.closing rest) := by
  have hResumes := resumes c s.closing rest
  generalize c.resume s.closing rest = d at hResumes ⊢
  cases hResumes with
  | @text t later hLater hLaterFault =>
      have hDrop := hReading.texts.symm.trans hLater
      have hMore : pulls + 1 ≤ (s.answer 0).texts.length := by
        have hLength := congrArg List.length hDrop
        rw [List.length_drop, List.length_cons] at hLength
        omega
      have hTail : (Answer.chunks later).texts = (s.answer 0).texts.drop (pulls + 1) := by
        rw [← List.drop_drop, hDrop, List.drop_one, List.tail_cons]
      have hNext : Reading (s.answer 0) (pulls + 1) later :=
        ⟨hReading.given, hMore, hTail, hLaterFault.trans hReading.fault⟩
      constructor
      case position => exact .suspended (Nat.succ_pos _) rfl hNext
      case calls => simpa using hCalls
      case received =>
        rw [List.take_add, hDrop, List.take_succ_cons, List.take_zero]
        exact congrArg (· ++ [t]) hReceived
      case breakdown => simpa [hMore] using hBreakdown
      case closings => simp [hReading.given, hClosings, Nat.not_lt.2 hMore]
      case quiet => simpa using hQuiet
  | ended hNil hNone =>
      refine hReading.stands_leave hNil hCalls hReceived ?_ hClosings hQuiet
      rw [hBreakdown, ← hReading.fault, hNone, Option.map_none]
  | brokeOff hNil hError =>
      refine hReading.stands_leave hNil hCalls hReceived ?_ hClosings hQuiet
      rw [← hReading.fault, hError]
      rfl

/-- One pull, of a conversation that was not closed. -/
theorem Stands.pull (h : Stands s call pulls false c) :
    Stands s call (pulls + 1) false (c.pull (some s) (.sound call)) := by
  obtain ⟨hPosition, hCalls, hReceived, hBreakdown, hClosings, hQuiet⟩ := h
  unfold Conversation.pull
  generalize hStream : c.stream = stream at hPosition
  cases hPosition with
  | unasked hPulls =>
      subst hPulls
      simp only [if_true, true_or, Nat.zero_le, List.take_zero]
        at hCalls hReceived hBreakdown hClosings
      simp only [ask]
      cases hAnswer : s.answer 0 with
      | raised error =>
          constructor
          case position => exact .finished (.inr (by rw [hAnswer]; exact Nat.one_pos))
          case calls => simp [finish, breakDown, hCalls]
          case received => simpa [finish, breakDown, hAnswer, Answer.texts] using hReceived
          case breakdown => simp [finish, breakDown, hAnswer, Answer.texts, Answer.fault?]
          case closings => simpa [finish, breakDown, hAnswer, Answer.isGiven] using hClosings
          case quiet => simp [finish, breakDown]
      | chunks given =>
          have hReading : Reading (s.answer 0) 0 given := by
            rw [hAnswer]
            exact ⟨rfl, Nat.zero_le _, rfl, rfl⟩
          exact hReading.stands_resume (by simp [hCalls]) hReceived hBreakdown (by simp [hClosings])
            rfl
  | @suspended rest hPulls hOpen hReading =>
      have hPast : ¬(s.answer 0).texts.length < pulls := Nat.not_lt.2 hReading.within
      refine hReading.stands_resume ?_ hReceived ?_ ?_ ?_
      · simpa [Nat.ne_of_gt hPulls] using hCalls
      · simpa [hReading.within] using hBreakdown
      · simpa [Nat.ne_of_gt hPulls, hReading.given, hPast] using hClosings
      · simpa [hPulls] using hQuiet
  | finished hOver =>
      -- the answer was at its end before
      have hPast : (s.answer 0).texts.length < pulls := by simpa using hOver
      have hPulls : pulls ≠ 0 := Nat.ne_zero_of_lt hPast
      have hLater : (s.answer 0).texts.length < pulls + 1 := Nat.lt_succ_of_lt hPast
      constructor
      case position =>
        change Position _ _ _ _ c.stream
        rw [hStream]
        exact .finished (.inr hLater)
      case calls => simpa [hPulls] using hCalls
      case received =>
        rw [List.take_of_length_le (Nat.le_of_lt hLater)]
        exact hReceived.trans (List.take_of_length_le (Nat.le_of_lt hPast))
      case breakdown => simpa [Nat.not_le.2 hPast, Nat.not_le.2 hLater] using hBreakdown
      case closings => simpa [hPulls, hPast, hLater] using hClosings
      case quiet => simpa [Nat.pos_of_ne_zero hPulls] using hQuiet

/-- A conversation that is closed stays as it is. -/
theorem Stands.pull_of_closed (h : Stands s call pulls true c) :
    c.pull (some s) (.sound call) = c := by
  have hPosition := h.position
  unfold Conversation.pull
  generalize hStream : c.stream = stream at hPosition
  cases hPosition with
  | unasked hPulls hOpen => exact absurd hOpen (by decide)
  | suspended hPulls hOpen hReading => exact absurd hOpen (by decide)
  | finished hOver => rfl

/-- Closing, of a conversation that may be closed already. -/
theorem Stands.close (h : Stands s call pulls closed c) : Stands s call pulls true c.close := by
  obtain ⟨hPosition, hCalls, hReceived, hBreakdown, hClosings, hQuiet⟩ := h
  unfold Conversation.close
  generalize hStream : c.stream = stream at hPosition
  cases hPosition with
  | unasked hPulls hOpen =>
      refine ⟨.finished (.inl rfl), hCalls, hReceived, hBreakdown, ?_, hQuiet⟩
      simpa [finish, hPulls] using hClosings
  | @suspended rest hPulls hOpen hReading =>
      have hPast : ¬(s.answer 0).texts.length < pulls := Nat.not_lt.2 hReading.within
      have hUnclosed : c.closings = [0] := by
        simpa [Nat.ne_of_gt hPulls, hReading.given, hOpen, hPast] using hClosings
      simp only [leave_eq]
      refine ⟨.finished (.inl rfl), hCalls, hReceived, hBreakdown, ?_, hQuiet⟩
      simp [Nat.ne_of_gt hPulls, hReading.given, hUnclosed]
  | finished hOver =>
      refine ⟨.finished (.inl rfl), hCalls, hReceived, hBreakdown, ?_, hQuiet⟩
      simpa [finish, hOver] using hClosings

/-- How often a reader pulled before it closed the conversation, if it did. -/
def pullsOf (moves : List Move) : Nat := (moves.takeWhile (· = .pull)).length

theorem pullsOf_append_of_mem {moves : List Move} (hClosed : .close ∈ moves) (more : List Move) :
    pullsOf (moves ++ more) = pullsOf moves := by
  induction moves with
  | nil => exact absurd hClosed List.not_mem_nil
  | cons m moves ih =>
      cases m with
      | close => rfl
      | pull =>
          have hLater : Move.close ∈ moves := by simpa using hClosed
          simpa [pullsOf] using ih hLater

theorem pullsOf_append_of_not_mem {moves : List Move} (hOpen : .close ∉ moves) (more : List Move) :
    pullsOf (moves ++ more) = pullsOf moves + pullsOf more := by
  induction moves with
  | nil => simp [pullsOf]
  | cons m moves ih =>
      cases m with
      | close => exact absurd List.mem_cons_self hOpen
      | pull =>
          have hLater : Move.close ∉ moves := by simpa using hOpen
          have hMoves := ih hLater
          simp only [pullsOf, List.cons_append, decide_true, List.takeWhile_cons_of_pos,
            List.length_cons] at hMoves ⊢
          omega

/-- What the moves of a reader have brought about. -/
theorem stands_run (s : Script) (call : Call) (moves : List Move) :
    Stands s call (pullsOf moves) (decide (.close ∈ moves)) (run (some s) (.sound call) moves) := by
  induction moves using List.reverseRecOn with
  | nil => exact stands_nil
  | append_singleton moves m ih =>
      rw [run, List.foldl_append]
      change Stands _ _ _ _ (step _ _ (run _ _ moves) m)
      by_cases hClosed : .close ∈ moves
      · simp only [hClosed, decide_true] at ih
        rw [pullsOf_append_of_mem hClosed]
        simp only [List.mem_append, hClosed, true_or, decide_true]
        cases m with
        | pull =>
            rw [step, ih.pull_of_closed]
            exact ih
        | close => exact ih.close
      · simp only [hClosed, decide_false] at ih
        rw [pullsOf_append_of_not_mem hClosed]
        cases m with
        | pull =>
            simp only [List.mem_append, hClosed, List.mem_singleton, reduceCtorEq, or_false,
              decide_false]
            exact ih.pull
        | close =>
            simp only [List.mem_append, List.mem_singleton, or_true, decide_true]
            exact ih.close

end

/-- A conversation with the gateway, whatever it answers and whatever its reader does. One call is
made, at the first pull. The strings are those of the answer, as many as were pulled. A fault of the
answer is reported once it is reached, as a failed inference with the same message. An answer that
was given is closed once when it was read to its end or left before, unless it cannot be closed, and
never otherwise; how the closing goes makes no difference. -/
theorem run_conveys (s : Script) (call : Call) (moves : List Move) :
    let answer := s.answer 0
    let pulls := pullsOf moves
    let c := run (some s) (.sound call) moves
    c.calls = (if pulls = 0 then [] else [call]) ∧
    c.received = answer.texts.take pulls ∧
    c.breakdown = (if pulls ≤ answer.texts.length then none
      else answer.fault?.map fun error => .raised (.sorted (.inference error.message))) ∧
    c.closings = (if pulls = 0 ∨ answer.isGiven = false then []
      else if (.close ∈ moves ∨ answer.texts.length < pulls) ∧ s.closing ≠ .absent then [1]
      else [0]) ∧
    ∀ closing,
      (run (some { s with closing := closing }) (.sound call) moves).received = c.received ∧
      (run (some { s with closing := closing }) (.sound call) moves).breakdown = c.breakdown := by
  intro answer pulls c
  have hStands := stands_run s call moves
  refine ⟨hStands.calls, hStands.received, hStands.breakdown, ?_, fun closing => ?_⟩
  · have hClosings := hStands.closings
    simp only [decide_eq_true_eq] at hClosings
    rw [hClosings]
    cases hClosing : s.closing with
    | absent => simp [Closing.calls, answer, pulls]
    | succeeds => simp [Closing.calls, answer, pulls]
    | fails => simp [Closing.calls, answer, pulls]
  · have hOther := stands_run { s with closing := closing } call moves
    exact ⟨hOther.received.trans hStands.received.symm,
      hOther.breakdown.trans hStands.breakdown.symm⟩

theorem pullsOf_replicate (limit : Nat) : pullsOf (List.replicate limit .pull) = limit := by
  simp [pullsOf]

end Conversation

/-- Reading the texts of a stream that is open. -/
theorem take_playing (limit : Nat) (texts : List Text) (ending leaving : Option Raised) :
    (Playback.take limit (.playing texts ending leaving)).1 = texts.take limit ∧
    (Playback.take limit (.playing texts ending leaving)).2.1 =
      if limit ≤ texts.length then none else ending := by
  induction limit generalizing texts with
  | zero => exact ⟨rfl, by simp [Playback.take]⟩
  | succ limit ih =>
      cases texts with
      | nil => cases ending <;> exact ⟨rfl, rfl⟩
      | cons t texts =>
          obtain ⟨hTexts, hEnding⟩ := ih texts
          simp only [Playback.take, Playback.next, Playback.advance]
          exact ⟨congrArg (t :: ·) hTexts, by simpa using hEnding⟩

theorem take_waiting (limit : Nat) (answer : Answer) :
    (Playback.take limit (.waiting answer.delivery)).1 =
      (answer.texts.take limit).map WideText.legible ∧
    (Playback.take limit (.waiting answer.delivery)).2.1 =
      if limit ≤ answer.texts.length then none else answer.fault?.map reported := by
  rw [Answer.delivery_eq]
  cases limit with
  | zero => exact ⟨rfl, by simp [Playback.take]⟩
  | succ limit =>
      cases answer with
      | raised error => exact ⟨rfl, rfl⟩
      | chunks given =>
          have hTaken := take_playing (limit + 1) ((Answer.chunks given).texts.map WideText.legible)
            ((Answer.chunks given).fault?.map reported) none
          rwa [List.length_map, ← List.map_take] at hTaken

/-- A task that plays an answer back is given what a conversation receives, as texts, and told of
the same fault. -/
theorem take_deliveries (s : Script) (call : Call) (limit : Nat) :
    let c := Conversation.run (some s) (.sound call) (List.replicate limit .pull)
    let played := Playback.take limit (.waiting (deliveries (some s) 0))
    played.1 = c.received.map WideText.legible ∧ played.2.1.map .raised = c.breakdown := by
  intro c played
  have hStands := Conversation.stands_run s call (List.replicate limit .pull)
  rw [Conversation.pullsOf_replicate] at hStands
  obtain ⟨hTexts, hEnding⟩ := take_waiting limit (s.answer 0)
  refine ⟨hTexts.trans (congrArg _ hStands.received.symm), ?_⟩
  rw [hStands.breakdown]
  change Option.map _ (Playback.take limit (.waiting (s.answer 0).delivery)).2.1 = _
  rw [hEnding]
  split
  · rfl
  · rw [Option.map_map]
    rfl

end Composer.Gateway
