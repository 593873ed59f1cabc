import Composer.Proofs.Field.Soundness
import Mathlib.Data.Option.Basic

/-! Values that say the same. The order in which an object has its members does not count, so two
objects are compared key by key; when the keys of the one are distinct, this is to say that its
members are found in the other and that the other has no more. -/

namespace Composer.Json

/-- Two values that say the same: the same string, or objects of which every key has values that say
the same, or in neither. The order of the members is left open. -/
inductive Agrees : Json → Json → Prop where
  | str (t : Text) : Agrees (.str t) (.str t)
  | brokenStr (t : BrokenText) : Agrees (.brokenStr t) (.brokenStr t)
  | obj {ms ns : List (Text × Json)}
      (hMembers : ∀ key, Option.Rel Agrees (member? key ms) (member? key ns)) :
      Agrees (.obj ms) (.obj ns)

@[simp] theorem agrees_str_iff {found : Json} {t : Text} :
    found.Agrees (.str t) ↔ found = .str t := by
  constructor
  · rintro ⟨⟩
    rfl
  · rintro rfl
    exact .str t

@[simp] theorem agrees_ofString_iff {found : Json} {s : WideText} :
    found.Agrees (.ofString s) ↔ found = .ofString s := by
  unfold ofString
  split
  · next t h => exact agrees_str_iff
  · next h =>
      constructor
      · rintro ⟨⟩
        rfl
      · rintro rfl
        exact .brokenStr _

theorem member?_eq_some_of_mem {ns : List (Text × Json)} (hKeys : (ns.map Prod.fst).Nodup)
    {n : Text × Json} (h : n ∈ ns) : member? n.1 ns = some n.2 := by
  induction ns with
  | nil => exact absurd h List.not_mem_nil
  | cons m ns ih =>
      obtain ⟨hNew, hKeys⟩ := List.nodup_cons.1 hKeys
      rcases List.mem_cons.1 h with rfl | h
      · simp [member?]
      · have hOther : m.1 ≠ n.1 := fun hSame => hNew (hSame ▸ List.mem_map_of_mem h)
        rw [← ih hKeys h]
        simp [member?, hOther]

/-- An object says the same as one with distinct keys when its members with these keys do, and it has
no others. -/
theorem agrees_obj_iff {found : Json} {ns : List (Text × Json)}
    (hKeys : (ns.map Prod.fst).Nodup) :
    found.Agrees (.obj ns) ↔ ∃ ms, found = .obj ms ∧
      (∀ n ∈ ns, ∃ value, member? n.1 ms = some value ∧ value.Agrees n.2) ∧
      ∀ key, key ∉ ns.map Prod.fst → member? key ms = none := by
  constructor
  · rintro (_ | _ | ⟨hMembers⟩)
    refine ⟨_, rfl, fun n hMem => ?_, fun key hKey => ?_⟩
    · have hRel := hMembers n.1
      rw [member?_eq_some_of_mem hKeys hMem] at hRel
      cases hFound : member? n.1 _ with
      | none => rw [hFound] at hRel; cases hRel
      | some value =>
          rw [hFound] at hRel
          cases hRel with
          | some hAgrees => exact ⟨value, rfl, hAgrees⟩
    · have hRel := hMembers key
      have hNone : member? key ns = none := member?_eq_none_iff.2 fun n hMem hSame =>
        hKey (hSame ▸ List.mem_map_of_mem hMem)
      rw [hNone] at hRel
      cases hFound : member? key _ with
      | none => rfl
      | some value => rw [hFound] at hRel; cases hRel
  · rintro ⟨ms, rfl, hHeld, hOthers⟩
    refine .obj fun key => ?_
    by_cases hKey : key ∈ ns.map Prod.fst
    · obtain ⟨n, hMem, rfl⟩ := List.mem_map.1 hKey
      obtain ⟨value, hFound, hAgrees⟩ := hHeld n hMem
      rw [hFound, member?_eq_some_of_mem hKeys hMem]
      exact .some hAgrees
    · have hNone : member? key ns = none := member?_eq_none_iff.2 fun n hMem hSame =>
        hKey (hSame ▸ List.mem_map_of_mem hMem)
      rw [hOthers key hKey, hNone]
      exact .none

end Composer.Json
