import Composer.Proofs.Policy.Limits
import Mathlib.Data.List.Pairwise

/-!
Overrides of a policy, as a set of laws. Overriding twice is overriding once with both sets of
entries, where the later entry wins and null entries are nobody's. An entry may use either name of
its limit. What no entry names stays, and a policy that is told its own limits is itself. A merge
that fails reports entries that were given, each with a value that no policy has there.

The laws rest on one description of a merge, `merge_eq_sound_iff`: each limit is read from the last
entry that is given for it, or stays.
-/

namespace Composer

namespace Json

variable {key : Text} {value : Json} {ms : List (Text × Json)}

theorem member?_cons (m : Text × Json) (ms : List (Text × Json)) :
    member? key (m :: ms) = if m.1 = key then some m.2 else member? key ms := by
  by_cases h : m.1 = key
  · simp [member?, h]
  · simp [member?, h]

theorem member?_setMember (key other : Text) (value : Json) (ms : List (Text × Json)) :
    member? other (setMember key value ms) =
      if key = other then some value else member? other ms := by
  induction ms with
  | nil => exact member?_cons _ _
  | cons m ms ih =>
      rw [setMember]
      split
      · next hKey =>
          subst hKey
          simp only [member?_cons]
          split <;> rfl
      · next hKey =>
          simp only [member?_cons, ih]
          split
          · next hOther => rw [if_neg fun h => hKey (hOther.trans h.symm)]
          · rfl

theorem mem_setMember {m : Text × Json} (h : m ∈ setMember key value ms) :
    m = (key, value) ∨ m ∈ ms := by
  induction ms with
  | nil => exact .inl (List.mem_singleton.1 h)
  | cons n ms ih =>
      rw [setMember] at h
      split at h
      · exact (List.mem_cons.1 h).imp_right (List.mem_cons_of_mem n)
      · rcases List.mem_cons.1 h with rfl | h
        · exact .inr List.mem_cons_self
        · exact (ih h).imp_right (List.mem_cons_of_mem n)

end Json

namespace Policy

/-! ### Names -/

/-- The two names that an override may use for a limit. -/
def Limit.Named (l : Limit) (name : Text) : Prop := name = l.internalName ∨ name = l.externalName

/-- Two names of the same thing: the same name, or the names of one limit. -/
def Alike (x y : Text) : Prop := x = y ∨ ∃ l : Limit, l.Named x ∧ l.Named y

theorem externalName_eq_iff {l : Limit} {name : Text} :
    externalName name = l.externalName ↔ l.Named name := by
  constructor
  · intro h
    unfold externalName at h
    cases hFound : names.lookup name with
    | none =>
        rw [hFound] at h
        exact .inr h
    | some found =>
        obtain ⟨before, after, hNames, -⟩ := List.lookup_eq_some_iff.1 hFound
        have hMem : (name, found) ∈ names := by
          rw [hNames]
          exact List.mem_append_right _ List.mem_cons_self
        rw [Limit.names_eq] at hMem
        obtain ⟨k, -, hk⟩ := List.mem_map.1 hMem
        obtain ⟨rfl, rfl⟩ := Prod.mk.inj hk
        rw [hFound] at h
        obtain rfl := Limit.externalName_injective h
        exact .inl rfl
  · rintro (rfl | rfl)
    · cases l <;> rfl
    · cases l <;> rfl

theorem externalName_eq_self_or (name : Text) :
    externalName name = name ∨ ∃ l : Limit, externalName name = l.externalName := by
  unfold externalName
  cases hFound : names.lookup name with
  | none => exact .inl rfl
  | some found =>
      obtain ⟨before, after, hNames, -⟩ := List.lookup_eq_some_iff.1 hFound
      have hMem : found ∈ names.map Prod.snd := by
        rw [hNames]
        simp
      exact .inr (Limit.mem_externalNames_iff.1 hMem)

/-- Names are alike when they are brought to the same name. -/
theorem alike_iff {x y : Text} : Alike x y ↔ externalName x = externalName y := by
  constructor
  · rintro (rfl | ⟨l, hx, hy⟩)
    · rfl
    · exact (externalName_eq_iff.2 hx).trans (externalName_eq_iff.2 hy).symm
  · intro h
    rcases externalName_eq_self_or x with hx | ⟨l, hx⟩
    · rcases externalName_eq_self_or y with hy | ⟨l, hy⟩
      · exact .inl (hx.symm.trans (h.trans hy))
      · exact .inr ⟨l, externalName_eq_iff.1 (h.trans hy), externalName_eq_iff.1 hy⟩
    · exact .inr ⟨l, externalName_eq_iff.1 hx, externalName_eq_iff.1 (h.symm.trans hx)⟩

instance (x y : Text) : Decidable (Alike x y) := decidable_of_iff _ alike_iff.symm

/-! ### Entries -/

/-- Each limit is named at most once, by one of its names. -/
def NamedOnce (entries : List (Text × Json)) : Prop :=
  entries.Pairwise fun m n => ¬Alike m.1 n.1

instance (entries : List (Text × Json)) : Decidable (NamedOnce entries) :=
  inferInstanceAs (Decidable (entries.Pairwise _))

/-- The same entries, some of them under the other name of their limit. -/
def Respelled : List (Text × Json) → List (Text × Json) → Prop :=
  List.Forall₂ fun m n => Alike m.1 n.1 ∧ m.2 = n.2

def isGiven : Text × Json → Bool
  | (_, .null) => false
  | _ => true

def given (entries : List (Text × Json)) : List (Text × Json) := entries.filter isGiven

/-- The earlier entries, each with the later value where the later ones use its name too. -/
def updated (earlier later : List (Text × Json)) : List (Text × Json) :=
  (given earlier).map fun m => (m.1, (Json.member? m.1 (given later)).getD m.2)

/-- The later entries whose names the earlier ones do not use. -/
def added (earlier later : List (Text × Json)) : List (Text × Json) :=
  (given later).filter fun m => (Json.member? m.1 (given earlier)).isNone

/-- The given entries of both: a name that both use keeps its place and takes the later value, and
a name that only the later ones use comes after. -/
def followedBy (earlier later : List (Text × Json)) : List (Text × Json) :=
  updated earlier later ++ added earlier later

theorem overrideMember_eq (ms : List (Text × Json)) (m : Text × Json) :
    overrideMember ms m = if isGiven m then Json.setMember (externalName m.1) m.2 ms else ms := by
  obtain ⟨name, value⟩ := m
  cases value <;> rfl

/-- What an entry gives under an external name. -/
def setting? (key : Text) (m : Text × Json) : Option Json :=
  if isGiven m ∧ externalName m.1 = key then some m.2 else none

def lastSetting? (key : Text) (entries : List (Text × Json)) : Option Json :=
  entries.reverse.findSome? (setting? key)

variable {key : Text} {a b : List (Text × Json)}

theorem setting?_eq_some_iff {m : Text × Json} {value : Json} :
    setting? key m = some value ↔ isGiven m ∧ externalName m.1 = key ∧ m.2 = value := by
  unfold setting?
  split
  · next h => simp [h]
  · next h => simp only [reduceCtorEq, ← and_assoc, h, false_and]

theorem lastSetting?_append (a b : List (Text × Json)) :
    lastSetting? key (a ++ b) = (lastSetting? key b).or (lastSetting? key a) := by
  rw [lastSetting?, List.reverse_append, List.findSome?_append]
  rfl

theorem lastSetting?_cons (m : Text × Json) (a : List (Text × Json)) :
    lastSetting? key (m :: a) = (lastSetting? key a).or (setting? key m) := by
  rw [← List.singleton_append, lastSetting?_append]
  congr 1
  simp [lastSetting?]

theorem lastSetting?_eq_none_iff :
    lastSetting? key a = none ↔ ∀ m ∈ a, isGiven m → externalName m.1 ≠ key := by
  simp only [lastSetting?, List.findSome?_eq_none_iff, List.mem_reverse, setting?, ite_eq_right_iff,
    reduceCtorEq, imp_false, not_and]

theorem exists_of_lastSetting?_eq_some {value : Json} (h : lastSetting? key a = some value) :
    ∃ m ∈ a, isGiven m ∧ externalName m.1 = key ∧ m.2 = value := by
  obtain ⟨m, hm, hSetting⟩ := List.exists_of_findSome?_eq_some h
  exact ⟨m, List.mem_reverse.1 hm, setting?_eq_some_iff.1 hSetting⟩

theorem NamedOnce.eq_of_externalName_eq (h : NamedOnce a) {m n : Text × Json} (hm : m ∈ a)
    (hn : n ∈ a) (hSame : externalName m.1 = externalName n.1) : m = n := by
  by_contra hNe
  have hSymm : Std.Symm fun m n : Text × Json => ¬Alike m.1 n.1 :=
    ⟨fun m n hApart hAlike => hApart (alike_iff.2 (alike_iff.1 hAlike).symm)⟩
  exact List.Pairwise.forall h hm hn hNe (alike_iff.2 hSame)

/-- When no limit is named twice, there is no choice between entries. -/
theorem NamedOnce.lastSetting?_eq_some_iff (h : NamedOnce a) {value : Json} :
    lastSetting? key a = some value ↔
      ∃ m ∈ a, isGiven m ∧ externalName m.1 = key ∧ m.2 = value := by
  constructor
  · exact exists_of_lastSetting?_eq_some
  · rintro ⟨m, hm, hGiven, hName, rfl⟩
    cases hLast : lastSetting? key a with
    | none => exact absurd hName (lastSetting?_eq_none_iff.1 hLast m hm hGiven)
    | some other =>
        obtain ⟨n, hn, -, hSame, rfl⟩ := exists_of_lastSetting?_eq_some hLast
        rw [h.eq_of_externalName_eq hm hn (hName.trans hSame.symm)]

theorem NamedOnce.of_keys_subset {c : List (Text × Json)} (h : NamedOnce a)
    (hKeys : (c.map Prod.fst).Sublist (a.map Prod.fst)) : NamedOnce c := by
  have hNames : (a.map Prod.fst).Pairwise fun x y => ¬Alike x y := List.pairwise_map.2 h
  exact List.pairwise_map.1 (hNames.sublist hKeys)

theorem mem_given_iff {m : Text × Json} : m ∈ given a ↔ m ∈ a ∧ isGiven m := List.mem_filter

theorem NamedOnce.given (h : NamedOnce a) : NamedOnce (given a) :=
  h.of_keys_subset (List.filter_sublist.map _)

theorem lastSetting?_given : lastSetting? key (given a) = lastSetting? key a := by
  induction a with
  | nil => rfl
  | cons m a ih =>
      by_cases hGiven : isGiven m
      · rw [Policy.given, List.filter_cons_of_pos hGiven, lastSetting?_cons, lastSetting?_cons]
        rw [← Policy.given, ih]
      · have hNone : setting? key m = none := if_neg fun h => hGiven h.1
        rw [Policy.given, List.filter_cons_of_neg hGiven, lastSetting?_cons, hNone, Option.or_none]
        exact ih

theorem NamedOnce.updated (ha : NamedOnce a) : NamedOnce (updated a b) :=
  ha.given.of_keys_subset (by rw [Policy.updated, List.map_map]; exact List.Sublist.refl _)

theorem NamedOnce.added (hb : NamedOnce b) : NamedOnce (added a b) :=
  hb.given.of_keys_subset (List.filter_sublist.map _)

theorem NamedOnce.member?_eq (h : NamedOnce a) {m : Text × Json} (hm : m ∈ a) :
    Json.member? m.1 a = some m.2 := by
  cases hMember : Json.member? m.1 a with
  | none =>
      rw [Json.member?, Option.map_eq_none_iff, List.find?_eq_none] at hMember
      exact (hMember m hm (decide_eq_true rfl)).elim
  | some value =>
      have hSame := h.eq_of_externalName_eq hm (Field.mem_of_member?_eq_some hMember) rfl
      rw [hSame]

/-- Where the later entries are silent, the earlier ones stay as they are. -/
theorem lastSetting?_updated_of_eq_none (ha : NamedOnce a) (hb : lastSetting? key b = none) :
    lastSetting? key (updated a b) = lastSetting? key a := by
  have hKept : ∀ m ∈ given a, externalName m.1 = key →
      (Json.member? m.1 (given b)).getD m.2 = m.2 := by
    intro m hm hName
    cases hMember : Json.member? m.1 (given b) with
    | none => rfl
    | some found =>
        obtain ⟨hMem, hGiven⟩ := mem_given_iff.1 (Field.mem_of_member?_eq_some hMember)
        exact (lastSetting?_eq_none_iff.1 hb _ hMem hGiven hName).elim
  rw [← lastSetting?_given (a := a)]
  refine Option.ext fun value => ?_
  rw [ha.updated.lastSetting?_eq_some_iff, ha.given.lastSetting?_eq_some_iff]
  constructor
  · rintro ⟨_, hMem, -, hName, rfl⟩
    obtain ⟨m, hm, rfl⟩ := List.mem_map.1 hMem
    exact ⟨m, hm, (mem_given_iff.1 hm).2, hName, (hKept m hm hName).symm⟩
  · rintro ⟨m, hm, hGiven, hName, rfl⟩
    have hValue := hKept m hm hName
    refine ⟨_, List.mem_map.2 ⟨m, hm, rfl⟩, ?_, hName, hValue⟩
    rw [hValue]
    exact hGiven

/-- In both sets of entries together the later one wins. -/
theorem lastSetting?_followedBy (ha : NamedOnce a) (hb : NamedOnce b) :
    lastSetting? key (followedBy a b) = (lastSetting? key b).or (lastSetting? key a) := by
  rw [followedBy, lastSetting?_append]
  cases hLater : lastSetting? key b with
  | none =>
      have hNew : lastSetting? key (added a b) = none := lastSetting?_eq_none_iff.2 fun m hm =>
        lastSetting?_eq_none_iff.1 hLater m (mem_given_iff.1 (List.mem_filter.1 hm).1).1
      rw [hNew, lastSetting?_updated_of_eq_none ha hLater]
  | some value =>
      obtain ⟨n, hn, hGiven, hName, rfl⟩ := exists_of_lastSetting?_eq_some hLater
      have hMem : n ∈ given b := mem_given_iff.2 ⟨hn, hGiven⟩
      cases hEarlier : Json.member? n.1 (given a) with
      | some replaced =>
          -- the entry has taken the place of one with the same name
          have hNew : lastSetting? key (added a b) = none := by
            refine lastSetting?_eq_none_iff.2 fun m hm _ hSame => ?_
            obtain ⟨hOther, hApart⟩ := List.mem_filter.1 hm
            rw [hb.given.eq_of_externalName_eq hOther hMem (hSame.trans hName.symm), hEarlier]
              at hApart
            cases hApart
          have hTaken : n ∈ updated a b := by
            refine List.mem_map.2 ⟨(n.1, replaced), Field.mem_of_member?_eq_some hEarlier, ?_⟩
            rw [hb.given.member?_eq hMem]
            rfl
          rw [hNew, Option.none_or, Option.some_or]
          exact ha.updated.lastSetting?_eq_some_iff.2 ⟨n, hTaken, hGiven, hName, rfl⟩
      | none =>
          have hAdded : n ∈ added a b :=
            List.mem_filter.2 ⟨hMem, Option.isNone_iff_eq_none.2 hEarlier⟩
          have hNew : lastSetting? key (added a b) = some n.2 :=
            hb.added.lastSetting?_eq_some_iff.2 ⟨n, hAdded, hGiven, hName, rfl⟩
          rw [hNew, Option.some_or, Option.some_or]

/-! ### Merging -/

theorem member?_foldl_overrideMember (a ms : List (Text × Json)) :
    Json.member? key (a.foldl overrideMember ms) =
      (lastSetting? key a).or (Json.member? key ms) := by
  induction a generalizing ms with
  | nil => rfl
  | cons m a ih =>
      rw [List.foldl_cons, ih, lastSetting?_cons, Option.or_assoc, overrideMember_eq, setting?]
      congr 1
      by_cases hGiven : isGiven m
      · rw [if_pos hGiven, Json.member?_setMember]
        simp only [hGiven, true_and]
        split <;> rfl
      · simp [hGiven]

theorem mem_foldl_overrideMember {ms : List (Text × Json)} {m : Text × Json}
    (h : m ∈ a.foldl overrideMember ms) :
    m ∈ ms ∨ ∃ n ∈ a, isGiven n ∧ m = (externalName n.1, n.2) := by
  induction a generalizing ms with
  | nil => exact .inl h
  | cons n a ih =>
      rcases ih h with hMem | ⟨k, hk, hGiven, rfl⟩
      · rw [overrideMember_eq] at hMem
        split at hMem
        · next hGiven =>
            rcases Json.mem_setMember hMem with rfl | hMem
            · exact .inr ⟨n, List.mem_cons_self, hGiven, rfl⟩
            · exact .inl hMem
        · exact .inl hMem
      · exact .inr ⟨k, List.mem_cons_of_mem n hk, hGiven, rfl⟩

theorem member?_toMembers_eq_none (p : Policy) (h : ∀ l : Limit, key ≠ l.externalName) :
    Json.member? key p.toMembers = none := by
  cases hMember : Json.member? key p.toMembers with
  | none => rfl
  | some value =>
      have hMem := Field.mem_of_member?_eq_some hMember
      rw [toMembers_eq] at hMem
      obtain ⟨l, -, hl⟩ := List.mem_map.1 hMem
      exact absurd (Prod.mk.inj hl).1.symm (h l)

/-- What a merge is: each limit is read from the last entry that is given for it, or stays, and
nothing is given that is no limit. -/
theorem merge_eq_sound_iff {p : Policy} (hp : p.WellFormed) {q : Policy} :
    p.merge a = .sound q ↔
      (∀ l : Limit,
        l.read ((lastSetting? l.externalName a).getD (p.limit l)) = .sound (q.limit l)) ∧
        ∀ key, (∀ l : Limit, key ≠ l.externalName) → lastSetting? key a = none := by
  cases a with
  | nil =>
      have hStays := (wellFormed_iff p).1 hp
      constructor
      · intro h
        obtain rfl := Checked.sound.inj h
        exact ⟨hStays, fun _ _ => rfl⟩
      · rintro ⟨hLimits, -⟩
        refine congrArg Checked.sound (eq_of_limit_eq fun l => ?_)
        exact Checked.sound.inj ((hStays l).symm.trans (hLimits l))
  | cons m a =>
      have hHeld : ∀ l : Limit, held l ((m :: a).foldl overrideMember p.toMembers) =
          l.read ((lastSetting? l.externalName (m :: a)).getD (p.limit l)) := by
        intro l
        rw [held, member?_foldl_overrideMember, member?_toMembers]
        cases lastSetting? l.externalName (m :: a) <;> rfl
      have hOther : ∀ key, (∀ l : Limit, key ≠ l.externalName) →
          Json.member? key ((m :: a).foldl overrideMember p.toMembers) =
            lastSetting? key (m :: a) := by
        intro key hKey
        rw [member?_foldl_overrideMember, member?_toMembers_eq_none p hKey, Option.or_none]
      rw [merge, if_neg (by simp), ofMembers_eq_sound_iff]
      refine and_congr (forall_congr' fun l => by rw [hHeld]) ?_
      exact forall_congr' fun key => forall_congr' fun hKey => by rw [hOther key hKey]

/-! ### The laws -/

variable {p q r : Policy}

theorem wellFormed_of_merge (hp : p.WellFormed) (h : p.merge a = .sound q) : q.WellFormed :=
  (wellFormed_iff q).2 fun l => Limit.read_of_read (((merge_eq_sound_iff hp).1 h).1 l)

/-- Overriding twice is overriding once. -/
theorem merge_followedBy (hp : p.WellFormed) (ha : NamedOnce a) (hb : NamedOnce b)
    (hq : p.merge a = .sound q) (hr : q.merge b = .sound r) :
    p.merge (followedBy a b) = .sound r := by
  obtain ⟨hFirst, hFirstOthers⟩ := (merge_eq_sound_iff hp).1 hq
  obtain ⟨hSecond, hSecondOthers⟩ := (merge_eq_sound_iff (wellFormed_of_merge hp hq)).1 hr
  refine (merge_eq_sound_iff hp).2 ⟨fun l => ?_, fun key hKey => ?_⟩
  · have hLater := hSecond l
    rw [lastSetting?_followedBy ha hb]
    cases hLast : lastSetting? l.externalName b with
    | some value =>
        rw [hLast] at hLater
        exact hLater
    | none =>
        -- what the first merge read is read again as itself
        rw [hLast, Option.getD_none, Limit.read_of_read (hFirst l)] at hLater
        rw [Option.none_or, ← Checked.sound.inj hLater]
        exact hFirst l
  · rw [lastSetting?_followedBy ha hb, hSecondOthers key hKey, hFirstOthers key hKey]
    rfl

theorem overrideMember_eq_of_alike {m n : Text × Json} (ms : List (Text × Json))
    (hName : Alike m.1 n.1) (hValue : m.2 = n.2) : overrideMember ms n = overrideMember ms m := by
  obtain ⟨x, value⟩ := m
  obtain ⟨y, _⟩ := n
  obtain rfl := hValue
  cases value <;> simp only [overrideMember, alike_iff.1 hName]

/-- Which of its names a limit is given by makes no difference. -/
theorem merge_eq_of_respelled {a' : List (Text × Json)} (h : Respelled a a') :
    p.merge a' = p.merge a := by
  have hFold : ∀ ms, a'.foldl overrideMember ms = a.foldl overrideMember ms := by
    induction h with
    | nil => exact fun _ => rfl
    | cons hHead _ ih =>
        intro ms
        rw [List.foldl_cons, List.foldl_cons, overrideMember_eq_of_alike ms hHead.1 hHead.2, ih]
  have hEmpty : a'.isEmpty = a.isEmpty := by
    cases h <;> rfl
  rw [merge, merge, hFold, hEmpty]

theorem limit_eq_of_merge (hp : p.WellFormed) (h : p.merge a = .sound q) {l : Limit}
    (hSilent : ∀ m ∈ given a, ¬l.Named m.1) : q.limit l = p.limit l := by
  have hNone : lastSetting? l.externalName a = none := lastSetting?_eq_none_iff.2
    fun m hm hGiven hName => hSilent m (mem_given_iff.2 ⟨hm, hGiven⟩) (externalName_eq_iff.1 hName)
  have hRead := ((merge_eq_sound_iff hp).1 h).1 l
  rw [hNone, Option.getD_none, (wellFormed_iff p).1 hp l] at hRead
  exact (Checked.sound.inj hRead).symm

theorem merge_of_given_eq_nil (hp : p.WellFormed) (h : given a = []) : p.merge a = .sound p := by
  have hNone : ∀ key, lastSetting? key a = none := fun key => by rw [← lastSetting?_given, h]; rfl
  refine (merge_eq_sound_iff hp).2 ⟨fun l => ?_, fun key _ => hNone key⟩
  rw [hNone]
  exact (wellFormed_iff p).1 hp l

theorem lastSetting?_toMembers (q : Policy) (l : Limit) :
    lastSetting? l.externalName q.toMembers = some (q.limit l) := by
  cases l <;> rfl

/-- A policy that is told all limits of another one becomes the other one. -/
theorem merge_toMembers (hp : p.WellFormed) (hq : q.WellFormed) :
    p.merge q.toMembers = .sound q := by
  refine (merge_eq_sound_iff hp).2 ⟨fun l => ?_, fun key hKey => ?_⟩
  · rw [lastSetting?_toMembers]
    exact (wellFormed_iff q).1 hq l
  · refine lastSetting?_eq_none_iff.2 fun m hm _ hName => ?_
    rw [toMembers_eq] at hm
    obtain ⟨l, -, rfl⟩ := List.mem_map.1 hm
    exact hKey l (hName.symm.trans (externalName_eq_iff.2 (.inr rfl)))

/-- A merge that fails reports entries that are given and that no policy can have. -/
theorem blames_merge (hp : p.WellFormed) (a : List (Text × Json)) :
    (p.merge a).Blames fun f => ∃ m ∈ given a,
      Unfit (externalName m.1, m.2) ∧ f.OfMember (externalName m.1, m.2) := by
  unfold merge
  split
  · trivial
  · refine (blames_ofMembers _).mono fun f => ?_
    rintro ⟨m, hm, hUnfit, hFault⟩
    rcases mem_foldl_overrideMember hm with hOwn | ⟨n, hn, hGiven, rfl⟩
    · rw [toMembers_eq] at hOwn
      obtain ⟨l, -, rfl⟩ := List.mem_map.1 hOwn
      exact absurd ((wellFormed_iff p).1 hp l) (hUnfit l rfl _)
    · exact ⟨n, mem_given_iff.2 ⟨hn, hGiven⟩, hUnfit, hFault⟩

/-- The laws of overriding, for all policies and all sets of entries that name no limit twice. -/
theorem merge_composes (hp : p.WellFormed) (ha : NamedOnce a) (hb : NamedOnce b) :
    (∀ q r, p.merge a = .sound q → q.merge b = .sound r →
      p.merge (followedBy a b) = .sound r) ∧
    (∀ a', Respelled a a' → p.merge a' = p.merge a) ∧
    (∀ q, p.merge a = .sound q → q.WellFormed ∧
      ∀ l : Limit, (∀ m ∈ given a, ¬l.Named m.1) → q.limit l = p.limit l) ∧
    (given a = [] → p.merge a = .sound p) ∧
    (∀ q dump, q.WellFormed → Respelled q.toMembers dump → p.merge dump = .sound q) ∧
    ∀ faults, p.merge a = .faulty faults → faults ≠ [] ∧ ∀ f ∈ faults, ∃ m ∈ given a,
      Unfit (externalName m.1, m.2) ∧ f.OfMember (externalName m.1, m.2) := by
  refine ⟨fun q r => merge_followedBy hp ha hb, fun a' => merge_eq_of_respelled, fun q hq => ?_,
    merge_of_given_eq_nil hp, fun q dump hq hDump => ?_, fun faults hFaults => ?_⟩
  · exact ⟨wellFormed_of_merge hp hq, fun l => limit_eq_of_merge hp hq⟩
  · exact (merge_eq_of_respelled hDump).trans (merge_toMembers hp hq)
  · have hBlames := blames_merge hp a
    rw [hFaults] at hBlames
    exact hBlames

/-- Numbers given as text, both names of a limit, and a null entry that the later ones fill in. -/
theorem merge_composes_standard :
    standard.WellFormed ∧
    NamedOnce [("maxVoices", .str "3"), ("max_lines", .null), ("require_setcpm", .str "off")] ∧
    NamedOnce [("max_voices", .int 5), ("maxLines", .int 100)] ∧
    standard.merge
        [("maxVoices", .str "3"), ("max_lines", .null), ("require_setcpm", .str "off")] =
      .sound { standard with maxVoices := 3, requireTempo := false } ∧
    standard.merge [("maxVoices", .str "3"), ("require_setcpm", .str "off"),
        ("max_voices", .int 5), ("maxLines", .int 100)] =
      .sound { standard with maxVoices := 5, maxLines := 100, requireTempo := false } := by
  have hEarlier : NamedOnce
      [("maxVoices", .str "3"), ("max_lines", .null), ("require_setcpm", .str "off")] := by
    decide +kernel
  have hLater : NamedOnce [("max_voices", .int 5), ("maxLines", .int 100)] := by decide +kernel
  exact ⟨wellFormed_standard, hEarlier, hLater, by rfl,
    (merge_composes wellFormed_standard hEarlier hLater).1 _ _ (by rfl) (by rfl)⟩

end Policy
end Composer
