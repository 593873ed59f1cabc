import Composer.Proofs.Text.Cutting
import Composer.Stream.Reader

/-! A stream that arrives in chunks. Only the lines of the whole count: the reader keeps the
incomplete line at the end of a chunk, and the next chunk goes on with it. So what chunks give does
not depend on where they were cut. -/

namespace Composer

namespace StreamReader

/-- The reader with another incomplete line. -/
def keeping (r : StreamReader) (pending : Text) : StreamReader := { r with pending := pending }

@[simp] theorem keeping_keeping (r : StreamReader) (first second : Text) :
    (r.keeping first).keeping second = r.keeping second := rfl

@[simp] theorem keeping_pending (r : StreamReader) : r.keeping r.pending = r := rfl

@[simp] theorem pending_keeping (r : StreamReader) (pending : Text) :
    (r.keeping pending).pending = pending := rfl

variable (depth : Nat)

/-- What is read does not depend on the incomplete line. -/
theorem feedLine_keeping (r : StreamReader) (pending line : Text) :
    (r.keeping pending).feedLine depth line =
      ((r.feedLine depth line).1.keeping pending, (r.feedLine depth line).2) := by
  unfold feedLine
  cases Event.ofLine depth (Text.trimEndWhere (· == '\r') line) with
  | error failure => rfl
  | ok found =>
      cases found with
      | none => rfl
      | some e => cases e <;> rfl

theorem feedLines_keeping (r : StreamReader) (pending : Text) (lines : List Text) :
    (r.keeping pending).feedLines depth lines =
      ((r.feedLines depth lines).1.keeping pending, (r.feedLines depth lines).2) := by
  induction lines generalizing r with
  | nil => rfl
  | cons line lines ih =>
      unfold feedLines
      rw [feedLine_keeping]
      cases r.feedLine depth line with
      | mk r' result =>
          cases result with
          | error failure => rfl
          | ok found =>
              simp only [ih]
              cases r'.feedLines depth lines with
              | mk r'' more => cases more <;> rfl

/-- Two results of reading one after the other. -/
def andThen (first : StreamReader × Except StreamFailure (List HeardEvent))
    (next : StreamReader → StreamReader × Except StreamFailure (List HeardEvent)) :
    StreamReader × Except StreamFailure (List HeardEvent) :=
  match first with
  | (r, .error failure) => (r, .error failure)
  | (r, .ok events) =>
    match next r with
    | (r', .error failure) => (r', .error failure)
    | (r', .ok more) => (r', .ok (events ++ more))

theorem feedLines_append (r : StreamReader) (first second : List Text) :
    r.feedLines depth (first ++ second) =
      andThen (r.feedLines depth first) (feedLines depth · second) := by
  induction first generalizing r with
  | nil =>
      simp only [List.nil_append, feedLines, andThen]
      cases r.feedLines depth second with
      | mk r' result => cases result <;> rfl
  | cons line first ih =>
      rw [List.cons_append, feedLines, feedLines]
      cases r.feedLine depth line with
      | mk r' result =>
          cases result with
          | error failure => rfl
          | ok found =>
              simp only [ih, andThen]
              cases r'.feedLines depth first with
              | mk r'' result =>
                  cases result with
                  | error failure => rfl
                  | ok events =>
                      simp only
                      cases r''.feedLines depth second with
                      | mk r''' result => cases result <;> simp

theorem feedAll_cons (r : StreamReader) (chunk : Text) (chunks : List Text) :
    r.feedAll depth (chunk :: chunks) = andThen (r.feed depth chunk) (feedAll depth · chunks) := by
  rw [feedAll]
  cases r.feed depth chunk with
  | mk r' result => cases result <;> rfl

/-- The complete lines of a text, and the beginning of a line that is left. -/
def completeLines (t : Text) : List Text := t.lines.dropLast

def openLine (t : Text) : Text := t.lines.getLastD []

theorem feed_eq (r : StreamReader) (chunk : Text) :
    r.feed depth chunk =
      ((r.feedLines depth (completeLines (r.pending ++ chunk))).1.keeping
        (openLine (r.pending ++ chunk)),
        (r.feedLines depth (completeLines (r.pending ++ chunk))).2) :=
  feedLines_keeping depth r (openLine (r.pending ++ chunk)) (completeLines (r.pending ++ chunk))

theorem lineFeed_not_mem_openLine (t : Text) : Text.lineFeed ∉ openLine t := by
  intro hMem
  have hPiece : openLine t ∈ t.lines := by
    have hNonempty : t.lines ≠ [] := Text.splitWhere_ne_nil t
    rw [openLine, List.getLastD_eq_getLast?, List.getLast?_eq_some_getLast hNonempty]
    exact List.getLast_mem hNonempty
  have hFalse := Text.eq_false_of_mem_splitWhere hPiece _ hMem
  simp at hFalse

theorem completeLines_append (s t : Text) :
    completeLines (s ++ t) = completeLines s ++ completeLines (openLine s ++ t) := by
  unfold completeLines openLine Text.lines
  rw [Text.splitWhere_append, List.dropLast_append_of_ne_nil (Text.splitWhere_ne_nil _)]

theorem openLine_append (s t : Text) : openLine (s ++ t) = openLine (openLine s ++ t) := by
  unfold openLine Text.lines
  rw [Text.splitWhere_append]
  generalize hPieces : Text.splitWhere _ (_ ++ t) = pieces
  have hNonempty : pieces ≠ [] := hPieces ▸ Text.splitWhere_ne_nil _
  rw [List.getLastD_eq_getLast?, List.getLastD_eq_getLast?, List.getLast?_append,
    List.getLast?_eq_some_getLast hNonempty]
  rfl

/-- Chunks give what the complete lines of the whole give, wherever they were cut. What is kept is the
incomplete line of the whole; only after a failure it depends on the cuts. -/
theorem feedAll_eq_feedLines (chunks : List Text) (r : StreamReader)
    (hPending : Text.lineFeed ∉ r.pending) :
    ∃ kept,
      r.feedAll depth chunks =
        ((r.feedLines depth (completeLines (r.pending ++ chunks.flatten))).1.keeping kept,
          (r.feedLines depth (completeLines (r.pending ++ chunks.flatten))).2) ∧
      ∀ events, (r.feedAll depth chunks).2 = .ok events →
        kept = openLine (r.pending ++ chunks.flatten) := by
  induction chunks generalizing r with
  | nil =>
      have hLines : (r.pending ++ ([] : List Text).flatten).lines = [r.pending] := by
        rw [List.flatten_nil, List.append_nil]
        exact Text.lines_eq_singleton hPending
      unfold completeLines openLine
      rw [hLines]
      exact ⟨r.pending, rfl, fun _ _ => rfl⟩
  | cons chunk chunks ih =>
      have hNext := ih ((r.feedLines depth (completeLines (r.pending ++ chunk))).1.keeping
        (openLine (r.pending ++ chunk))) (lineFeed_not_mem_openLine _)
      rw [feedLines_keeping] at hNext
      rw [List.flatten_cons, ← List.append_assoc,
        completeLines_append (r.pending ++ chunk) chunks.flatten,
        openLine_append (r.pending ++ chunk) chunks.flatten, feedAll_cons, feed_eq, feedLines_append]
      cases hFirst : r.feedLines depth (completeLines (r.pending ++ chunk)) with
      | mk r' result =>
          rw [hFirst] at hNext
          cases result with
          | error failure =>
              exact ⟨openLine (r.pending ++ chunk), rfl, fun events h => absurd h (by simp [andThen])⟩
          | ok events =>
              obtain ⟨kept, hAll, hKept⟩ := hNext
              simp only [pending_keeping, keeping_keeping] at hAll hKept
              refine ⟨kept, ?_, fun all hResult => ?_⟩
              · simp only [andThen, hAll]
                cases r'.feedLines depth
                  (completeLines (openLine (r.pending ++ chunk) ++ chunks.flatten)) with
                | mk q result => cases result <;> rfl
              · simp only [andThen] at hResult
                cases hRest : (r'.keeping (openLine (r.pending ++ chunk))).feedAll depth chunks with
                | mk q result =>
                    rw [hRest] at hResult hKept
                    cases result with
                    | error failure => exact absurd hResult (by simp)
                    | ok more => exact hKept more rfl

theorem feedAll_fresh (chunks : List Text) :
    ∃ kept,
      fresh.feedAll depth chunks =
        ((fresh.feedLines depth (completeLines chunks.flatten)).1.keeping kept,
          (fresh.feedLines depth (completeLines chunks.flatten)).2) ∧
      ∀ events, (fresh.feedAll depth chunks).2 = .ok events → kept = openLine chunks.flatten :=
  feedAll_eq_feedLines depth chunks fresh List.not_mem_nil

end StreamReader

end Composer
