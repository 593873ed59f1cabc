import Composer.Provider.Delivery

/-!
What happens to the streams of a provider, read off their playbacks before and after a step. A step
lets the newest stream go on or sets up another one; then the signals of the steps add up to those
of the streams that are left behind.
-/

namespace Composer

/-- What happens to a stream; the streams are counted from zero. -/
inductive StreamSignal where
  | opened (stream : Nat)
  | closed (stream : Nat)
  deriving DecidableEq, Repr

namespace Playback

/-- Whether there is nothing left to close: the stream ran out, broke off, or was released, or it
was never more than a refusal. -/
def isOver : Playback → Bool
  | closed => true
  | refused => true
  | _ => false

/-- What happened to the stream `n` when its playback, if there was one, became another. -/
def signals (n : Nat) (before : Option Playback) (after : Playback) : List StreamSignal :=
  (if after.isRequested && !before.any isRequested then [.opened n] else []) ++
    (if after.isOver && !before.any isOver then [.closed n] else [])

/-- A playback that became another one without going back. -/
structure Onward (p q : Playback) : Prop where
  requested : p.isRequested → q.isRequested
  ended : p.isOver → q.isOver

theorem isRequested_of_isOver {p : Playback} (h : p.isOver) : p.isRequested := by
  cases p with
  | waiting delivery => exact Bool.noConfusion h
  | playing texts ending leaving => rfl
  | refused => rfl
  | closed => rfl

theorem onward_refl (p : Playback) : p.Onward p := ⟨id, id⟩

theorem onward_next (p : Playback) : p.Onward p.next.2 := by
  have hAdvance : ∀ texts ending leaving, (advance texts ending leaving).2.isRequested := by
    intro texts ending leaving
    cases texts with
    | nil => cases ending <;> rfl
    | cons t texts => rfl
  cases p with
  | waiting delivery => exact ⟨fun h => Bool.noConfusion h, fun h => Bool.noConfusion h⟩
  | playing texts ending leaving => exact ⟨fun _ => hAdvance .., fun h => Bool.noConfusion h⟩
  | refused => exact onward_refl _
  | closed => exact onward_refl _

theorem onward_release (p : Playback) : p.Onward p.release.2 := by
  cases p with
  | playing texts ending leaving => exact ⟨fun _ => rfl, fun _ => rfl⟩
  | waiting delivery => exact onward_refl _
  | refused => exact onward_refl _
  | closed => exact onward_refl _

theorem signals_self (n : Nat) (p : Playback) : signals n (some p) p = [] := by
  simp [signals]

/-- What happened to a stream adds up. -/
theorem Onward.signals_eq {p q : Playback} (h : p.Onward q) (n : Nat) :
    signals n none q = signals n none p ++ signals n (some p) q := by
  unfold signals
  by_cases hStarted : p.isRequested
  · have hRequested := h.requested hStarted
    by_cases hEnded : p.isOver
    · simp [hStarted, hEnded, hRequested, h.ended hEnded]
    · simp [hStarted, hEnded, hRequested]
  · have hOpen : ¬p.isOver := fun hOver => hStarted (isRequested_of_isOver hOver)
    simp [hStarted, hOpen]

end Playback

/-- What happened to all streams, in the order in which they were set up. -/
def streamSignals (before after : List Playback) : List StreamSignal :=
  after.zipIdx.flatMap fun (p, n) => Playback.signals n before[n]? p

/-- The newest stream goes on, and all others stay as they are. -/
inductive Continued : List Playback → List Playback → Prop where
  | kept (ps : List Playback) : Continued ps ps
  | went (before : List Playback) {p q : Playback} (h : p.Onward q) :
      Continued (before ++ [p]) (before ++ [q])

/-- What a step may do to the streams of a task: the newest goes on, or another one is set up. -/
inductive Moved : List Playback → List Playback → Prop where
  | continued {before after : List Playback} (h : Continued before after) : Moved before after
  | added (before : List Playback) (p : Playback) : Moved before (before ++ [p])

theorem Continued.length_eq {before after : List Playback} (h : Continued before after) :
    after.length = before.length := by
  cases h with
  | kept => rfl
  | went others h => simp

/-- A stream that is set up and goes on at once was set up as what it is then. -/
theorem Continued.added {before after : List Playback} {p : Playback}
    (h : Continued (before ++ [p]) after) : Moved before after := by
  generalize hSetUp : before ++ [p] = ps at h
  cases h with
  | kept => exact hSetUp ▸ .added before p
  | @went others p' q h =>
      obtain ⟨rfl, -⟩ := List.append_inj' hSetUp rfl
      exact .added before q

theorem streamSignals_concat (before ps : List Playback) (p : Playback) :
    streamSignals before (ps ++ [p]) =
      streamSignals before ps ++ Playback.signals ps.length before[ps.length]? p := by
  simp [streamSignals, List.zipIdx_append]

/-- Nothing happened to streams that are as they were. -/
theorem streamSignals_eq_nil {before after : List Playback} (h : after <+: before) :
    streamSignals before after = [] := by
  obtain ⟨rest, rfl⟩ := h
  refine List.flatMap_eq_nil_iff.2 fun (p, n) hMem => ?_
  have hAfter : after[n]? = some p := List.mem_zipIdx_iff_getElem?.1 hMem
  obtain ⟨hLength, -⟩ := List.getElem?_eq_some_iff.1 hAfter
  simp only [List.getElem?_append_left hLength, hAfter, Playback.signals_self]

/-- What happened to the streams adds up over a step. -/
theorem Moved.streamSignals_eq {before after : List Playback} (h : Moved before after) :
    streamSignals [] after = streamSignals [] before ++ streamSignals before after := by
  cases h with
  | continued h =>
      cases h with
      | kept => rw [streamSignals_eq_nil List.prefix_rfl, List.append_nil]
      | @went ps p q h =>
          rw [streamSignals_concat, streamSignals_concat, streamSignals_concat,
            streamSignals_eq_nil (List.prefix_append ..)]
          simp [h.signals_eq]
  | added p =>
      rw [streamSignals_concat, streamSignals_concat, streamSignals_eq_nil List.prefix_rfl]
      simp

/-- Streams that are all over, but for a newest one that was only set up. -/
inductive Released : List Playback → Prop where
  | ended {ps : List Playback} (hOver : ∀ p ∈ ps, p.isOver) : Released ps
  | setUp {ps : List Playback} {p : Playback} (hOver : ∀ p ∈ ps, p.isOver)
      (hWaiting : p.isRequested = false) : Released (ps ++ [p])

theorem streamSignals_of_over {ps : List Playback} (hOver : ∀ p ∈ ps, p.isOver) :
    streamSignals [] ps = (List.range ps.length).flatMap fun n => [.opened n, .closed n] := by
  have hEach : ∀ x ∈ ps.zipIdx, Playback.signals x.2 ([] : List Playback)[x.2]? x.1 =
      [.opened x.2, .closed x.2] := by
    intro x hMem
    have hEnded := hOver x.1 (List.fst_mem_of_mem_zipIdx hMem)
    simp [Playback.signals, hEnded, Playback.isRequested_of_isOver hEnded]
  calc
    _ = ps.zipIdx.flatMap fun x => [.opened x.2, .closed x.2] := by
      rw [streamSignals, List.flatMap_def, List.map_congr_left hEach, ← List.flatMap_def]
    _ = (ps.zipIdx.map Prod.snd).flatMap fun n => [.opened n, .closed n] := by
      rw [List.flatMap_map]
    _ = _ := by rw [List.zipIdx_map_snd, List.range_eq_range']

/-- Of released streams, each that was asked for was opened and closed once, and closed before the
next was opened. -/
theorem Released.streamSignals_eq {ps : List Playback} (hReleased : Released ps) :
    streamSignals [] ps =
      (List.range (ps.countP Playback.isRequested)).flatMap fun n => [.opened n, .closed n] := by
  have hCount : ∀ {qs : List Playback}, (∀ p ∈ qs, p.isOver) →
      qs.countP Playback.isRequested = qs.length := by
    intro qs hOver
    exact List.countP_eq_length.2 fun p hMem => Playback.isRequested_of_isOver (hOver p hMem)
  cases hReleased with
  | ended hOver => rw [streamSignals_of_over hOver, hCount hOver]
  | @setUp ps p hOver hWaiting =>
      have hUnopened : p.isOver = false := by
        rw [← Bool.not_eq_true]
        exact fun h => absurd (hWaiting.symm.trans (Playback.isRequested_of_isOver h)) (by simp)
      rw [streamSignals_concat, streamSignals_of_over hOver, List.countP_append, hCount hOver]
      simp [Playback.signals, hWaiting, hUnopened]

end Composer
