import Composer.Proofs.Field.Soundness

/-!
What a check that does not pass reports. It reports one fault at least. A check of a single value
finds fault with the whole of it; a check of an object finds fault with members that are there, each
under its own name.
-/

namespace Composer

/-- A fault of a whole value, whatever parts the value has. -/
structure Fault.OfWhole (f : Fault) (value : Json) : Prop where
  path : f.path = []
  found : f.found = value

/-- A fault of one member of an object, reported under its name. -/
structure Fault.OfMember (f : Fault) (m : Text × Json) : Prop where
  path : f.path = [.key m.1]
  found : f.found = m.2

namespace Checked

variable {α β : Type} {P Q : Fault → Prop}

/-- A check that passes, or reports one fault at least and only faults with a property. -/
def Blames (P : Fault → Prop) : Checked α → Prop
  | sound _ => True
  | faulty faults => faults ≠ [] ∧ ∀ f ∈ faults, P f

theorem Blames.mono {x : Checked α} (h : x.Blames P) (hPQ : ∀ f, P f → Q f) : x.Blames Q := by
  cases x with
  | sound a => trivial
  | faulty faults => exact ⟨h.1, fun f hf => hPQ f (h.2 f hf)⟩

theorem Blames.map {x : Checked α} (h : x.Blames P) (g : α → β) : (g <$> x).Blames P := by
  cases x with
  | sound a => trivial
  | faulty faults => exact h

theorem Blames.seq {g : Checked (α → β)} {x : Checked α} (hg : g.Blames P) (hx : x.Blames P) :
    (g <*> x).Blames P := by
  cases g with
  | sound g =>
      cases x with
      | sound a => trivial
      | faulty faults => exact hx
  | faulty faults =>
      cases x with
      | sound a => exact hg
      | faulty more =>
          refine ⟨by simp [hg.1], fun f hf => ?_⟩
          exact (List.mem_append.1 hf).elim (hg.2 f) (hx.2 f)

theorem Blames.andThen {x : Checked α} {g : α → Checked β} (hx : x.Blames P)
    (hg : ∀ a, (g a).Blames P) : (x.andThen g).Blames P := by
  cases x with
  | sound a => exact hg a
  | faulty faults => exact hx

theorem blames_refuse (kind : FaultKind) (found : Json) :
    (refuse kind found : Checked α).Blames (·.OfWhole found) :=
  ⟨List.cons_ne_nil _ _, fun f hf => by rw [List.mem_singleton.1 hf]; exact ⟨rfl, rfl⟩⟩

end Checked

namespace Field

open Checked

variable {α : Type}

theorem blames_integer (found : Json) : (integer found).Blames (·.OfWhole found) := by
  cases found with
  | int n => trivial
  | bool b => trivial
  | float x =>
      simp only [integer]
      split
      · exact blames_refuse _ _
      · split
        · exact blames_refuse _ _
        · split
          · trivial
          · exact blames_refuse _ _
  | str t =>
      simp only [integer]
      cases Reading.fieldInteger t with
      | value n => trivial
      | malformed => exact blames_refuse _ _
      | tooLong => exact blames_refuse _ _
  | _ => exact blames_refuse _ _

theorem blames_integerFrom (least : Nat) (found : Json) :
    (integerFrom least found).Blames (·.OfWhole found) := by
  refine (blames_integer found).andThen fun n => ?_
  split
  · trivial
  · exact blames_refuse _ _

theorem blames_flag (found : Json) : (flag found).Blames (·.OfWhole found) := by
  cases found with
  | bool b => trivial
  | int n =>
      simp only [flag]
      split
      · trivial
      · split
        · trivial
        · exact blames_refuse _ _
  | float x =>
      simp only [flag]
      split
      · trivial
      · trivial
      · exact blames_refuse _ _
  | str t =>
      simp only [flag]
      split
      · trivial
      · exact blames_refuse _ _
  | _ => exact blames_refuse _ _

theorem blames_number (admits : Int → Bool) (found : Json) :
    (number admits found).Blames (·.OfWhole found) := by
  cases found with
  | float x => trivial
  | int n =>
      simp only [number]
      split
      · trivial
      · exact blames_refuse _ _
  | bool b => trivial
  | str t =>
      simp only [number]
      split
      · trivial
      · exact blames_refuse _ _
  | _ => exact blames_refuse _ _

theorem blames_ceiling (found : Json) : (ceiling found).Blames (·.OfWhole found) := by
  refine (blames_number _ found).andThen fun x => ?_
  split
  · trivial
  · exact blames_refuse _ _

theorem mem_of_member?_eq_some {key : Text} {value : Json} {ms : List (Text × Json)}
    (h : Json.member? key ms = some value) : (key, value) ∈ ms := by
  obtain ⟨⟨name, found⟩, hFind, rfl⟩ := Option.map_eq_some_iff.1 h
  have hName : name = key := by simpa using List.find?_some hFind
  exact hName ▸ List.mem_of_find?_eq_some hFind

/-- A field with a fallback is at fault only when it is there and its value is refused. -/
theorem blames_defaulted {name : Text} {fallback : α} {read : Json → Checked α}
    {ms : List (Text × Json)} (hRead : ∀ value, (read value).Blames (·.OfWhole value)) :
    (defaulted name fallback read ms).Blames fun f =>
      ∃ value, (name, value) ∈ ms ∧ f.OfMember (name, value) ∧ ∀ a, read value ≠ .sound a := by
  unfold defaulted
  cases hMember : Json.member? name ms with
  | none => trivial
  | some value =>
      have hBlames := hRead value
      cases hFaults : read value with
      | sound a => simp only [hFaults]; trivial
      | faulty faults =>
          rw [hFaults] at hBlames
          simp only [hFaults]
          refine ⟨by simpa using hBlames.1, fun f hf => ?_⟩
          obtain ⟨g, hg, rfl⟩ := List.mem_map.1 hf
          have hWhole := hBlames.2 g hg
          refine ⟨value, mem_of_member?_eq_some hMember, ⟨?_, hWhole.found⟩, by simp [hFaults]⟩
          simp [Fault.under, hWhole.path]

theorem blames_onlyNamed (names : List Text) (ms : List (Text × Json)) :
    (onlyNamed names ms).Blames fun f => ∃ m ∈ ms, m.1 ∉ names ∧ f.OfMember m := by
  simp only [onlyNamed]
  split
  · trivial
  · next hMore =>
      refine ⟨by simpa using hMore, fun f hf => ?_⟩
      obtain ⟨m, hm, rfl⟩ := List.mem_map.1 hf
      obtain ⟨hMem, hOther⟩ := List.mem_filter.1 hm
      exact ⟨m, hMem, by simpa using hOther, rfl, rfl⟩

end Field

end Composer
