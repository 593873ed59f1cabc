import Composer.Proofs.Generation.Consistency
import Composer.Proofs.Generation.Drain
import Mathlib.Logic.Function.Basic

/-!
Several readers on one task. The readers are pulled and closed in any order; the first that is
pulled while nothing was done to it leads, and reads alone. A reader that was closed before it was
pulled never starts.

`Visit` extends the histories by what closing the leader may leave behind. `Ruled` says who leads
after some actions, and is kept by every action.
-/

namespace Composer

/-- What is done to one reader of a task. -/
inductive Action where
  | pull (reader : Nat)
  | close (reader : Nat)
  deriving DecidableEq, Repr

namespace Action

def reader : Action → Nat
  | pull i => i
  | close i => i

/-- The leader among readers, where something was done before to those given. -/
def leaderAmong : (touched : List Nat) → List Action → Option Nat
  | _, [] => none
  | touched, close i :: actions => leaderAmong (i :: touched) actions
  | touched, pull i :: actions => if i ∈ touched then leaderAmong touched actions else some i

/-- The first reader that is pulled before anything else is done to it. -/
def leader (actions : List Action) : Option Nat := leaderAmong [] actions

/-- The first reader that is pulled at all, which may have been closed before. -/
def firstPulled : List Action → Option Nat
  | [] => none
  | close _ :: actions => firstPulled actions
  | pull i :: _ => some i

def Untouched (i : Nat) (actions : List Action) : Prop := ∀ a ∈ actions, a.reader ≠ i

instance (i : Nat) (actions : List Action) : Decidable (Untouched i actions) :=
  inferInstanceAs (Decidable (∀ a ∈ actions, a.reader ≠ i))

theorem untouched_append_singleton {i : Nat} {actions : List Action} {a : Action} :
    Untouched i (actions ++ [a]) ↔ Untouched i actions ∧ a.reader ≠ i := by
  simp [Untouched, or_imp, forall_and]

theorem untouched_cons {i : Nat} {actions : List Action} {a : Action} :
    Untouched i (a :: actions) ↔ a.reader ≠ i ∧ Untouched i actions := by
  simp [Untouched]

theorem leaderAmong_append {touched : List Nat} {actions : List Action} {i : Nat}
    (h : leaderAmong touched actions = some i) (more : List Action) :
    leaderAmong touched (actions ++ more) = some i := by
  induction actions generalizing touched with
  | nil => simp [leaderAmong] at h
  | cons a actions ih =>
      cases a with
      | close j => exact ih h
      | pull j =>
          simp only [List.cons_append, leaderAmong] at h ⊢
          split at h
          · next hTouched => rw [if_pos hTouched, ih h]
          · next hTouched => rw [if_neg hTouched, h]

theorem not_untouched_of_leaderAmong {touched : List Nat} {actions : List Action} {i : Nat}
    (h : leaderAmong touched actions = some i) : ¬Untouched i actions := by
  induction actions generalizing touched with
  | nil => simp [leaderAmong] at h
  | cons a actions ih =>
      rw [untouched_cons]
      rintro ⟨hReader, hRest⟩
      cases a with
      | close j => exact ih h hRest
      | pull j =>
          simp only [leaderAmong] at h
          split at h
          · exact ih h hRest
          · exact hReader (Option.some.inj h)

/-- Closing a reader makes no leader. -/
theorem leaderAmong_append_close {touched : List Nat} {actions : List Action}
    (h : leaderAmong touched actions = none) (i : Nat) :
    leaderAmong touched (actions ++ [close i]) = none := by
  induction actions generalizing touched with
  | nil => rfl
  | cons b actions ih =>
      cases b with
      | close j => exact ih h
      | pull j =>
          simp only [List.cons_append, leaderAmong] at h ⊢
          by_cases hTouched : j ∈ touched
          · rw [if_pos hTouched] at h ⊢
            exact ih h
          · simp [hTouched] at h

/-- While nobody leads, pulling a reader makes it the leader if nothing was done to it. -/
theorem leaderAmong_append_pull {touched : List Nat} {actions : List Action}
    (h : leaderAmong touched actions = none) (i : Nat) :
    leaderAmong touched (actions ++ [pull i]) =
      if i ∉ touched ∧ Untouched i actions then some i else none := by
  induction actions generalizing touched with
  | nil => simp [leaderAmong, Untouched]
  | cons b actions ih =>
      cases b with
      | close j =>
          rw [List.cons_append, leaderAmong, ih h]
          simp only [untouched_cons, reader, List.mem_cons, not_or, ne_eq, eq_comm (a := j),
            and_assoc, and_left_comm]
      | pull j =>
          simp only [List.cons_append, leaderAmong] at h ⊢
          by_cases hTouched : j ∈ touched
          · rw [if_pos hTouched] at h ⊢
            have hSame : i ∉ touched ∧ Untouched i (pull j :: actions) ↔
                i ∉ touched ∧ Untouched i actions := by
              rw [untouched_cons]
              constructor
              · rintro ⟨hi, -, hRest⟩
                exact ⟨hi, hRest⟩
              · rintro ⟨hi, hRest⟩
                exact ⟨hi, fun hj => hi (hj ▸ hTouched), hRest⟩
            rw [ih h]
            simp only [hSame]
          · simp [hTouched] at h

/-- To pull a reader to which something was done makes no leader. -/
theorem leader_append_pull_of_touched {i : Nat} {actions : List Action}
    (hTouched : ¬Untouched i actions) : leader (actions ++ [pull i]) = leader actions := by
  cases hLeader : leader actions with
  | none => exact (leaderAmong_append_pull hLeader i).trans (if_neg fun h => hTouched h.2)
  | some j => exact leaderAmong_append hLeader [pull i]

end Action

/-- A task with the cursors of all its readers, and the events that were sent, each with the reader
that it was sent to. -/
structure Sharing where
  task : Task
  cursors : Nat → Cursor
  sent : List (Nat × Event)

namespace Sharing

def start (t : Task) : Sharing := ⟨t, fun _ => .unstarted, []⟩

/-- A step of the reader `i`. -/
def step (s : Sharing) (i : Nat) (result : Pulled × Task × Cursor) : Pulled × Sharing :=
  (result.1, ⟨result.2.1, Function.update s.cursors i result.2.2,
    s.sent ++ result.1.events.map (i, ·)⟩)

/-- One action, and what its reader gives for it. -/
def act (s : Sharing) : Action → Pulled × Sharing
  | .pull i => s.step i (s.task.pull (s.cursors i))
  | .close i => s.step i (s.task.close (s.cursors i))

/-- What becomes of a task after actions in order. -/
def run (t : Task) (actions : List Action) : Sharing :=
  actions.foldl (fun s a => (s.act a).2) (start t)

end Sharing

namespace Task

section
variable (base : Task)

/-- A task with the cursor of its leader and the events that the leader was sent, also after the
leader was closed. -/
inductive Visit : Task → Cursor → List Event → Prop where
  /-- The leader was not closed. -/
  | reading {t : Task} {cursor : Cursor} {events : List Event} {raised : Option TaskFault}
      (hHistory : History base t cursor events raised) (hStarted : cursor ≠ .unstarted) :
      Visit t cursor events
  /-- The leader was closed where no stream was open. -/
  | paused {t : Task} {cursor : Cursor} {events : List Event} {raised : Option TaskFault}
      (hHistory : History base t cursor events raised) (hStarted : cursor ≠ .unstarted)
      (hQuiet : cursor ≠ .streaming) : Visit t .over events
  /-- The leader was closed while an attempt was being streamed, and the stream with it. -/
  | left {before : List Attempt} {prior : List Event} {a : Attempt}
      (hOpening : Opening base before prior) (hBegun : Begun base before a)
      (hVerdict : a.verdict = none) (hPlayback : a.playback = .closed) :
      Visit (base.standing .streaming (before ++ [a]) none none) .over (prior ++ a.deltas)
  /-- So it was, and closing the stream raised something, which was answered as a failure. -/
  | answered {before : List Attempt} {prior : List Event} {a : Attempt} {error : Raised}
      (hOpening : Opening base before prior) (hBegun : Begun base before a)
      (hVerdict : a.verdict = none) (hPlayback : a.playback = .closed) :
      Visit
        (base.standing .failed (before ++ [a]) none (some (.provider (.classify error)))) .over
        (prior ++ a.deltas ++ [.error (ProviderError.classify error).message])

end

section
variable {base : Task}

theorem History.stage_ne_idle {t : Task} {cursor : Cursor} {events : List Event}
    {raised : Option TaskFault} (hHistory : History base t cursor events raised)
    (hStarted : cursor ≠ .unstarted) : t.stage ≠ .idle := by
  cases hHistory with
  | unread => exact absurd rfl hStarted
  | finished hOpening hPassed hFinished => cases hPassed <;> exact Stage.noConfusion
  | streaming => exact Stage.noConfusion
  | brokenOff => exact Stage.noConfusion
  | unextracted => exact Stage.noConfusion
  | unjudged => exact Stage.noConfusion
  | announced => exact Stage.noConfusion
  | cleared => exact Stage.noConfusion
  | unfinished => exact Stage.noConfusion

theorem Visit.stage_ne_idle {t : Task} {cursor : Cursor} {events : List Event}
    (hVisit : Visit base t cursor events) : t.stage ≠ .idle := by
  cases hVisit with
  | reading hHistory hStarted => exact hHistory.stage_ne_idle hStarted
  | paused hHistory hStarted hQuiet => exact hHistory.stage_ne_idle hStarted
  | left => exact Stage.noConfusion
  | answered => exact Stage.noConfusion

theorem Visit.consistent {t : Task} {cursor : Cursor} {events : List Event}
    (hVisit : Visit base t cursor events) : Consistent t events := by
  cases hVisit with
  | reading hHistory hStarted => exact hHistory.consistent
  | paused hHistory hStarted hQuiet => exact hHistory.consistent
  | @left before prior a hOpening hBegun hVerdict hPlayback =>
      exact consistent_running rfl (hOpening.not_isTerminal a) (hOpening.retriedOnce (.inr hVerdict))
        (hOpening.latestText_deltas a)
  | @answered before prior a error hOpening hBegun hVerdict hPlayback =>
      exact consistent_failed (hOpening.retriedOnce (.inr hVerdict)) (hOpening.latestText_deltas a)

/-- A step of reading raises nothing but a fault of validation. -/
theorem History.pull_fault {t : Task} {cursor : Cursor} {events : List Event}
    {raised : Option TaskFault} (hHistory : History base t cursor events raised)
    {fault : TaskFault} (hFault : (t.pull cursor).1 = .raised fault) :
    ∃ error, fault = .validation error := by
  have hPull := hHistory.pull
  cases raised with
  | none =>
      rw [hFault] at hPull
      obtain ⟨⟨digits, -, rfl⟩, -⟩ := hPull.unjudgeable_of_raised
      exact ⟨_, rfl⟩
  | some earlier =>
      -- Something was raised before, so the reader is at its end.
      cases hHistory with
      | unjudged => exact absurd hFault (by simp [Task.pull])

theorem Visit.pull {t : Task} {cursor : Cursor} {events : List Event}
    (hVisit : Visit base t cursor events) :
    Visit base (t.pull cursor).2.1 (t.pull cursor).2.2 (events ++ (t.pull cursor).1.events) := by
  cases hVisit with
  | reading hHistory hStarted =>
      exact .reading hHistory.pull (pull_ne_unstarted t cursor)
  | paused hHistory hStarted hQuiet =>
      simpa [Task.pull, Pulled.events] using Visit.paused hHistory hStarted hQuiet
  | left hOpening hBegun hVerdict hPlayback =>
      simpa [Task.pull, Pulled.events] using Visit.left hOpening hBegun hVerdict hPlayback
  | @answered before prior a error hOpening hBegun hVerdict hPlayback =>
      simpa [Task.pull, Pulled.events] using
        @Visit.answered base before prior a error hOpening hBegun hVerdict hPlayback

theorem Visit.pull_fault {t : Task} {cursor : Cursor} {events : List Event}
    (hVisit : Visit base t cursor events) {fault : TaskFault}
    (hFault : (t.pull cursor).1 = .raised fault) : ∃ error, fault = .validation error := by
  cases hVisit with
  | reading hHistory hStarted => exact hHistory.pull_fault hFault
  | paused hHistory hStarted hQuiet => exact absurd hFault Pulled.noConfusion
  | left hOpening hBegun hVerdict hPlayback => exact absurd hFault Pulled.noConfusion
  | answered hOpening hBegun hVerdict hPlayback => exact absurd hFault Pulled.noConfusion

/-- The leader stops while an attempt is being streamed: the task stays where it is, or fails when
closing the stream raised something. -/
theorem leave_visit {before : List Attempt} {prior : List Event} {a : Attempt} {rest : List Text}
    {ending leaving : Option Raised} (hOpening : Opening base before prior)
    (hBegun : Begun base before a) (hVerdict : a.verdict = none)
    (hPlayback : a.playback = .playing rest ending leaving) :
    let stopped := (base.standing .streaming (before ++ [a]) none none).leave
    Visit base stopped.2.1 stopped.2.2 (prior ++ a.deltas ++ stopped.1.events) ∧
      stopped.1.fault? = none := by
  have hClosed : Begun base before { a with playback := .closed } := ⟨hBegun.number, hBegun.prompt⟩
  unfold leave
  rw [getLast?_standing]
  simp only [updateLast_standing, hPlayback, Playback.release]
  cases leaving with
  | none =>
      have hLeft := Visit.left hOpening hClosed hVerdict rfl
      rw [← List.append_nil (prior ++ _)] at hLeft
      exact ⟨hLeft, rfl⟩
  | some error =>
      simp only [fail_standing .streaming _ _ (by decide)]
      exact ⟨.answered hOpening hClosed hVerdict rfl, rfl⟩

theorem close_of_ne_streaming (t : Task) {cursor : Cursor} (h : cursor ≠ .streaming) :
    t.close cursor = (.exhausted, t, .over) := by
  cases cursor with
  | streaming => exact absurd rfl h
  | unstarted => rfl
  | announced => rfl
  | cleared => rfl
  | _ => rfl

theorem Visit.close {t : Task} {cursor : Cursor} {events : List Event}
    (hVisit : Visit base t cursor events) :
    Visit base (t.close cursor).2.1 (t.close cursor).2.2 (events ++ (t.close cursor).1.events) ∧
      (t.close cursor).1.fault? = none := by
  cases hVisit with
  | @reading _ _ _ raised hHistory hStarted =>
      by_cases hStreaming : cursor = .streaming
      · subst hStreaming
        cases hHistory with
        | streaming hOpening hBegun hVerdict hDelivery hPlayback =>
            exact leave_visit hOpening hBegun hVerdict hPlayback
      · rw [close_of_ne_streaming t hStreaming]
        refine ⟨?_, rfl⟩
        simpa [Pulled.events] using Visit.paused hHistory hStarted hStreaming
  | paused hHistory hStarted hQuiet =>
      refine ⟨?_, rfl⟩
      simpa [Task.close, Pulled.events] using Visit.paused hHistory hStarted hQuiet
  | left hOpening hBegun hVerdict hPlayback =>
      refine ⟨?_, rfl⟩
      simpa [Task.close, Pulled.events] using Visit.left hOpening hBegun hVerdict hPlayback
  | @answered before prior a error hOpening hBegun hVerdict hPlayback =>
      refine ⟨?_, rfl⟩
      simpa [Task.close, Pulled.events] using
        @Visit.answered base before prior a error hOpening hBegun hVerdict hPlayback

end

end Task

namespace Sharing

/-- A reader that does not lead: it did not start, or something was done to it and it is over. -/
def Bystander (s : Sharing) (actions : List Action) (i : Nat) : Prop :=
  s.cursors i = if Action.Untouched i actions then .unstarted else .over

/-- What remains when the reader `i` is over and nothing else changes. -/
def retire (s : Sharing) (i : Nat) : Sharing :=
  ⟨s.task, Function.update s.cursors i .over, s.sent⟩

section
variable {s : Sharing} {actions : List Action} {i : Nat}

theorem Bystander.close (hBystander : s.Bystander actions i) :
    s.act (.close i) = (.exhausted, s.retire i) := by
  have hClose : s.task.close (s.cursors i) = (.exhausted, s.task, .over) := by
    rw [hBystander]
    split <;> rfl
  simp [act, step, retire, hClose, Pulled.events]

theorem Bystander.pull_touched (hBystander : s.Bystander actions i)
    (hTouched : ¬Action.Untouched i actions) :
    s.act (.pull i) = (.exhausted, s.retire i) := by
  rw [Bystander, if_neg hTouched] at hBystander
  simp [act, step, retire, hBystander, Task.pull, Pulled.events]

/-- A reader that comes too late. -/
theorem Bystander.pull_untouched (hBystander : s.Bystander actions i)
    (hUntouched : Action.Untouched i actions) (hBusy : s.task.stage ≠ .idle) :
    s.act (.pull i) = (.raised .alreadyRun, s.retire i) := by
  rw [Bystander, if_pos hUntouched] at hBystander
  simp [act, step, retire, hBystander, Task.pull, Task.raise, hBusy, Pulled.events]

/-- A reader that does not lead stays as it is while something is done to another. -/
theorem Bystander.other {a : Action} {s' : Sharing} (hBystander : s.Bystander actions i)
    (hOther : a.reader ≠ i) (hCursor : s'.cursors i = s.cursors i) :
    s'.Bystander (actions ++ [a]) i := by
  rw [Bystander, hCursor, hBystander]
  simp only [Action.untouched_append_singleton, hOther, ne_eq, not_false_eq_true, and_true]

theorem Bystander.of_over {a : Action} (hReader : a.reader = i) (hCursor : s.cursors i = .over) :
    s.Bystander (actions ++ [a]) i := by
  rw [Bystander, hCursor]
  simp [Action.untouched_append_singleton, hReader]

/-- When a reader is over, it and all other readers that do not lead are bystanders. -/
theorem Bystander.retire {a : Action} {j : Nat} (hBystander : s.Bystander actions i)
    (hReader : a.reader = j) : (s.retire j).Bystander (actions ++ [a]) i := by
  by_cases hOther : i = j
  · subst hOther
    exact .of_over hReader (Function.update_self ..)
  · refine hBystander.other (fun h => hOther (h.symm.trans hReader)) ?_
    exact Function.update_of_ne hOther ..

end

/-- Who leads after some actions, where the leader stands, and that nobody else does anything. -/
inductive Ruled (base : Task) (actions : List Action) (s : Sharing) : Prop where
  | vacant (hLeader : Action.leader actions = none)
      (hTask : s.task = base.standing .idle [] none none) (hSent : s.sent = [])
      (hOthers : ∀ i, s.Bystander actions i)
  | led {i : Nat} {events : List Event} (hLeader : Action.leader actions = some i)
      (hVisit : Task.Visit base s.task (s.cursors i) events) (hSent : s.sent = events.map (i, ·))
      (hOthers : ∀ j, j ≠ i → s.Bystander actions j)

/-- What an action does, by the reader to which it is done. -/
inductive Turn (base : Task) (actions : List Action) (s : Sharing) : Action → Pulled × Sharing → Prop
    where
  /-- The reader leads, perhaps from now on. -/
  | leading {a : Action} {events : List Event} {result : Pulled × Task × Cursor}
      (hLeader : Action.leader (actions ++ [a]) = some a.reader)
      (hVisit : Task.Visit base result.2.1 result.2.2 (events ++ result.1.events))
      (hSent : s.sent = events.map (a.reader, ·))
      (hFault : ∀ fault, result.1 = .raised fault → ∃ error, fault = .validation error)
      (hOthers : ∀ j, j ≠ a.reader → s.Bystander actions j) :
      Turn base actions s a (s.step a.reader result)
  /-- Another reader leads, and this one comes too late. -/
  | late {i : Nat} (hLeader : Action.leader (actions ++ [.pull i]) = Action.leader actions)
      (hSome : (Action.leader actions).isSome) (hOther : Action.leader actions ≠ some i)
      (hUntouched : Action.Untouched i actions) :
      Turn base actions s (.pull i) (.raised .alreadyRun, s.retire i)
  /-- The reader does not lead, and it is closed, or something was done to it before. -/
  | aside {a : Action} (hLeader : Action.leader (actions ++ [a]) = Action.leader actions)
      (hOther : Action.leader actions ≠ some a.reader)
      (hTouched : ∀ i, a = .pull i → ¬Action.Untouched i actions) :
      Turn base actions s a (.exhausted, s.retire a.reader)

section
variable {base : Task} {s : Sharing} {actions : List Action}

/-- What an action does where it is known who leads. -/
theorem Ruled.turn (hRuled : Ruled base actions s) (a : Action) :
    Turn base actions s a (s.act a) := by
  cases hRuled with
  | vacant hNone hTask hSent hOthers =>
      have hNobody : ∀ i, Action.leader actions ≠ some i := by simp [hNone]
      cases a with
      | close i =>
          have hLeader := (Action.leaderAmong_append_close hNone i).trans hNone.symm
          rw [(hOthers i).close]
          exact .aside hLeader (hNobody i) fun j h => Action.noConfusion h
      | pull i =>
          by_cases hUntouched : Action.Untouched i actions
          · have hPull := Action.leaderAmong_append_pull hNone i
            rw [if_pos ⟨List.not_mem_nil, hUntouched⟩] at hPull
            have hCursor : s.cursors i = .unstarted := (hOthers i).trans (if_pos hUntouched)
            have hHistory : Task.History base s.task (s.cursors i) [] none := by
              rw [hTask, hCursor]
              exact .unread
            exact @Turn.leading base actions s (.pull i) [] _ hPull
              (.reading hHistory.pull (Task.pull_ne_unstarted _ _)) hSent
              (fun fault => hHistory.pull_fault) fun j _ => hOthers j
          · rw [(hOthers i).pull_touched hUntouched]
            refine .aside (Action.leader_append_pull_of_touched hUntouched) (hNobody i) fun j h => ?_
            obtain rfl := Action.pull.inj h
            exact hUntouched
  | @led i events hSome hVisit hSent hOthers =>
      have hLeader : Action.leader (actions ++ [a]) = some i :=
        Action.leaderAmong_append hSome [a]
      by_cases hReader : a.reader = i
      · subst hReader
        cases a with
        | pull j => exact .leading hLeader hVisit.pull hSent (fun fault => hVisit.pull_fault) hOthers
        | close j =>
            refine .leading hLeader hVisit.close.1 hSent (fun fault hFault => ?_) hOthers
            have hQuiet := hVisit.close.2
            change (s.task.close (s.cursors j)).1.fault? = none at hQuiet
            rw [hFault] at hQuiet
            exact absurd hQuiet (by simp [Pulled.fault?])
      · have hSame := hLeader.trans hSome.symm
        have hOther : Action.leader actions ≠ some a.reader := by
          rw [hSome]
          exact fun h => hReader (Option.some.inj h).symm
        cases a with
        | close j =>
            rw [(hOthers j hReader).close]
            exact .aside hSame hOther fun j h => Action.noConfusion h
        | pull j =>
            by_cases hUntouched : Action.Untouched j actions
            · rw [(hOthers j hReader).pull_untouched hUntouched hVisit.stage_ne_idle]
              exact .late hSame (by simp [hSome]) hOther hUntouched
            · rw [(hOthers j hReader).pull_touched hUntouched]
              refine .aside hSame hOther fun k h => ?_
              obtain rfl := Action.pull.inj h
              exact hUntouched

/-- A reader that does not lead retires, and who leads stays the same. -/
theorem Ruled.retire {a : Action} (hRuled : Ruled base actions s)
    (hLeader : Action.leader (actions ++ [a]) = Action.leader actions)
    (hOther : Action.leader actions ≠ some a.reader) :
    Ruled base (actions ++ [a]) (s.retire a.reader) := by
  cases hRuled with
  | vacant hNone hTask hSent hOthers =>
      exact .vacant (hLeader.trans hNone) hTask hSent fun i => (hOthers i).retire rfl
  | @led i events hSome hVisit hSent hOthers =>
      have hNot : i ≠ a.reader := fun h => hOther (h ▸ hSome)
      have hCursor : (s.retire a.reader).cursors i = s.cursors i := Function.update_of_ne hNot ..
      refine .led (hLeader.trans hSome) ?_ hSent fun j hj => (hOthers j hj).retire rfl
      rw [hCursor]
      exact hVisit

/-- The step lemma: after every action it is known who leads. -/
theorem Ruled.act (hRuled : Ruled base actions s) (a : Action) :
    Ruled base (actions ++ [a]) (s.act a).2 := by
  have hTurn := hRuled.turn a
  cases hResult : s.act a with
  | mk answer s' =>
      rw [hResult] at hTurn
      cases hTurn with
      | @leading _ events result hLeader hVisit hSent hFault hOthers =>
          refine @Ruled.led base _ _ a.reader (events ++ result.1.events) hLeader ?_ ?_ ?_
          · simpa using hVisit
          · simp [hSent]
          · intro j hj
            exact (hOthers j hj).other (fun h => hj h.symm) (Function.update_of_ne hj ..)
      | @late i hLeader hSome hOther hUntouched => exact hRuled.retire hLeader hOther
      | aside hLeader hOther hTouched => exact hRuled.retire hLeader hOther

/-- The run lemma: after any actions it is known who leads. -/
theorem Ruled.run (hRuled : Ruled base actions s) (more : List Action) :
    Ruled base (actions ++ more) (more.foldl (fun s a => (s.act a).2) s) := by
  induction more generalizing actions s with
  | nil => simpa using hRuled
  | cons a more ih =>
      have hRest := ih (hRuled.act a)
      rwa [List.append_assoc] at hRest

theorem Ruled.consistent (hRuled : Ruled base actions s) :
    Task.Consistent s.task (s.sent.map Prod.snd) := by
  cases hRuled with
  | vacant hNone hTask hSent hOthers =>
      rw [hTask, hSent]
      exact Task.History.unread.consistent
  | @led i events hSome hVisit hSent hOthers =>
      have hEvents : (events.map (i, ·)).map Prod.snd = events := by simp [Function.comp_def]
      rw [hSent, hEvents]
      exact hVisit.consistent

theorem Ruled.leads (hRuled : Ruled base actions s) {i : Nat} {e : Event} (h : (i, e) ∈ s.sent) :
    Action.leader actions = some i := by
  cases hRuled with
  | vacant hNone hTask hSent hOthers => simp [hSent] at h
  | @led j events hSome hVisit hSent hOthers =>
      rw [hSent] at h
      obtain ⟨_, -, hPair⟩ := List.mem_map.1 h
      rw [hSome, (Prod.mk.inj hPair).1]

end

/-- The rules that the readers of a task keep. -/
structure Orderly (actions : List Action) (s : Sharing) : Prop where
  /-- The task agrees with itself and with all events that were sent. -/
  consistent : Task.Consistent s.task (s.sent.map Prod.snd)
  /-- Only the leader is sent events. -/
  leads : ∀ i e, (i, e) ∈ s.sent → Action.leader actions = some i
  /-- What is done next to a reader that does not lead then changes nothing. -/
  unchanged : ∀ a, Action.leader (actions ++ [a]) ≠ some a.reader →
    (s.act a).2.task = s.task ∧ (s.act a).2.sent = s.sent
  /-- A reader to which nothing was done is refused exactly when there is a leader. -/
  refused : ∀ i, Action.Untouched i actions →
    ((s.act (.pull i)).1 = .raised .alreadyRun ↔ (Action.leader actions).isSome)
  /-- A reader that does not lead is over once something was done to it. -/
  ended : ∀ i, ¬Action.Untouched i actions → Action.leader actions ≠ some i →
    (s.act (.pull i)).1 = .exhausted
  /-- No stage is followed by one that may not follow it. -/
  staged : ∀ a source target, (s.act a).1 ≠ .raised (.invalidTransition source target)

/-- The readers of a task keep the rules, whatever the provider does and in whatever order they are
pulled and closed. -/
theorem run_orderly (prepared : PreparedRequest) (policy : Policy)
    (references : Option ReferenceSource) (deliveries : Deliveries) (actions : List Action) :
    Orderly actions (run (Task.fresh prepared policy references deliveries) actions) := by
  have hStart : Ruled (Task.fresh prepared policy references deliveries) []
      (start (Task.fresh prepared policy references deliveries)) :=
    .vacant rfl rfl rfl fun i => rfl
  have hRuled := hStart.run actions
  rw [List.nil_append] at hRuled
  change Ruled _ actions (run (Task.fresh prepared policy references deliveries) actions) at hRuled
  generalize run (Task.fresh prepared policy references deliveries) actions = s at hRuled ⊢
  refine ⟨hRuled.consistent, fun i e => hRuled.leads, ?_, ?_, ?_, ?_⟩
  · intro a hOther
    have hTurn := hRuled.turn a
    cases hResult : s.act a with
    | mk answer s' =>
        rw [hResult] at hTurn
        cases hTurn with
        | leading hLeader => exact absurd hLeader hOther
        | late => exact ⟨rfl, rfl⟩
        | aside => exact ⟨rfl, rfl⟩
  · intro i hUntouched
    have hTurn := hRuled.turn (.pull i)
    cases hResult : s.act (.pull i) with
    | mk answer s' =>
        rw [hResult] at hTurn
        cases hTurn with
        | leading hLeader hVisit hSent hFault hOthers =>
            constructor
            · intro hRaised
              obtain ⟨error, hError⟩ := hFault _ hRaised
              exact TaskFault.noConfusion hError
            · intro hSome
              obtain ⟨j, hj⟩ := Option.isSome_iff_exists.1 hSome
              have hLead := Action.leaderAmong_append hj [.pull i]
              obtain rfl : j = i := Option.some.inj (hLead.symm.trans hLeader)
              exact absurd hUntouched (Action.not_untouched_of_leaderAmong hj)
        | late hLeader hSome hOther hFirst => exact ⟨fun _ => hSome, fun _ => rfl⟩
        | aside hLeader hOther hTouched => exact absurd hUntouched (hTouched i rfl)
  · intro i hTouched hOther
    have hTurn := hRuled.turn (.pull i)
    cases hResult : s.act (.pull i) with
    | mk answer s' =>
        rw [hResult] at hTurn
        cases hTurn with
        | leading hLeader =>
            rw [Action.leader_append_pull_of_touched hTouched] at hLeader
            exact absurd hLeader hOther
        | late hLeader hSome hOther hUntouched => exact absurd hUntouched hTouched
        | aside => rfl
  · intro a source target hRaised
    have hTurn := hRuled.turn a
    cases hResult : s.act a with
    | mk answer s' =>
        rw [hResult] at hTurn hRaised
        cases hTurn with
        | leading hLeader hVisit hSent hFault hOthers =>
            obtain ⟨error, hError⟩ := hFault _ hRaised
            exact TaskFault.noConfusion hError
        | late hLeader hSome hOther hUntouched =>
            exact TaskFault.noConfusion (Pulled.raised.inj hRaised)
        | aside hLeader hOther hTouched => exact Pulled.noConfusion hRaised

/-- A task whose provider answers with one word. -/
def hummed : Task := Task.fresh default .standard none fun _ => .streamed ["hum"] none

/-- The first reader that is pulled need not be the one that is sent events: it may have been closed
before. Nor need every other reader be refused when it is first pulled: one that was closed before
is at its end. -/
theorem closed_readers_end :
    (Action.firstPulled [.close 0, .pull 0, .pull 1] = some 0 ∧
      (1, .delta "hum") ∈ (run hummed [.close 0, .pull 0, .pull 1]).sent) ∧
    (Action.firstPulled [.pull 0, .close 1, .pull 1] = some 0 ∧
      ((run hummed [.pull 0, .close 1]).act (.pull 1)).1 = .exhausted) := by
  decide +kernel

end Sharing

end Composer
