import Composer.Field.Reading

/-! When a check passes. Checks that are combined pass when each of them does, and a check of an
object passes when each of its fields does and no other member is there. -/

namespace Composer

namespace Checked

variable {α β : Type}

@[simp] theorem map_eq_sound_iff {f : α → β} {x : Checked α} {b : β} :
    f <$> x = .sound b ↔ ∃ a, x = .sound a ∧ f a = b := by
  cases x with
  | sound a => simp [Functor.map, map]
  | faulty faults => simp [Functor.map, map]

@[simp] theorem seq_eq_sound_iff {f : Checked (α → β)} {x : Checked α} {b : β} :
    f <*> x = .sound b ↔ ∃ g a, f = .sound g ∧ x = .sound a ∧ g a = b := by
  change both f x = .sound b ↔ _
  cases f with
  | sound g =>
      cases x with
      | sound a => simp [both]
      | faulty faults => simp [both]
  | faulty faults =>
      cases x with
      | sound a => simp [both]
      | faulty more => simp [both]

@[simp] theorem andThen_eq_sound_iff {x : Checked α} {f : α → Checked β} {b : β} :
    x.andThen f = .sound b ↔ ∃ a, x = .sound a ∧ f a = .sound b := by
  cases x with
  | sound a => simp [andThen]
  | faulty faults => simp [andThen]

@[simp] theorem under_eq_sound_iff {step : PathStep} {x : Checked α} {a : α} :
    x.under step = .sound a ↔ x = .sound a := by
  cases x with
  | sound b => rfl
  | faulty faults => simp [under]

@[simp] theorem refuse_ne_sound {kind : FaultKind} {found : Json} {a : α} :
    refuse kind found ≠ .sound a := nofun

end Checked

namespace Json

theorem member?_eq_none_iff {key : Text} {ms : List (Text × Json)} :
    member? key ms = none ↔ ∀ m ∈ ms, m.1 ≠ key := by
  simp [member?]

end Json

namespace Field

variable {α : Type} {found : Json} {ms : List (Text × Json)}

@[simp] theorem string_eq_sound_iff {s : WideText} :
    string found = .sound s ↔ found = .ofString s := by
  constructor
  · intro h
    cases found with
    | str t =>
        obtain rfl := Checked.sound.inj h
        exact (Json.ofString_widen t).symm
    | brokenStr t =>
        obtain rfl := Checked.sound.inj h
        exact (Json.ofString_codePoints t).symm
    | _ => exact absurd h nofun
  · rintro rfl
    unfold Json.ofString
    split
    · next t h => exact congrArg Checked.sound (WideText.narrow?_eq_some_iff.1 h).symm
    · rfl

@[simp] theorem members_eq_sound_iff {kind : FaultKind} :
    members kind found = .sound ms ↔ found = .obj ms := by
  cases found with
  | obj ns => simp [members]
  | _ => simp [members, Checked.refuse]

@[simp] theorem required_eq_sound_iff {name : Text} {read : Json → Checked α} {a : α} :
    required name read ms = .sound a ↔
      ∃ value, Json.member? name ms = some value ∧ read value = .sound a := by
  unfold required
  cases Json.member? name ms with
  | none => simp
  | some value => simp

@[simp] theorem onlyNamed_eq_sound_iff {names : List Text} {u : Unit} :
    onlyNamed names ms = .sound u ↔ ∀ key, key ∉ names → Json.member? key ms = none := by
  have hOthers : (ms.filter fun m => !names.contains m.1).isEmpty ↔
      ∀ key, key ∉ names → Json.member? key ms = none := by
    simp only [List.isEmpty_iff, List.filter_eq_nil_iff, Json.member?_eq_none_iff]
    constructor
    · rintro hAll key hKey m hMem rfl
      exact hAll m hMem (by simpa using hKey)
    · intro hNone m hMem hOther
      exact hNone m.1 (by simpa using hOther) m hMem rfl
  simp only [onlyNamed]
  split
  · next hEmpty => exact iff_of_true rfl (hOthers.1 hEmpty)
  · next hMore => exact iff_of_false nofun (hMore ∘ hOthers.2)

end Field

end Composer
