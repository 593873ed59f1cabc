import Composer.Proofs.Text.Cutting
import Composer.Provider.Routing

/-!
Which credential a request is served with. Four places are looked at in a fixed order, the request
first, and the first text there that is not blank is taken. It alone decides: where it belongs to
the other provider the request is refused, whatever the later places hold.
-/

namespace Composer

namespace Text

/-- The first of the texts that is not blank, without the white space at its ends. -/
def FirstFilled (texts : List Text) (found : Text) : Prop :=
  ∃ before t after, texts = before ++ t :: after ∧ (∀ s ∈ before, s.isBlankText) ∧
    t.isBlankText = false ∧ found = t.strip

theorem isEmpty_strip (t : Text) : t.strip.isEmpty = t.isBlankText := by
  rw [Bool.eq_iff_iff, List.isEmpty_iff, strip_eq_nil_iff]

theorem find?_strip_eq_some_iff (texts : List Text) (found : Text) :
    (texts.map strip).find? (!·.isEmpty) = some found ↔ FirstFilled texts found := by
  simp only [List.find?_map, Option.map_eq_some_iff, List.find?_eq_some_iff_append,
    Function.comp_apply, isEmpty_strip, Bool.not_eq_true', Bool.not_not]
  constructor
  · rintro ⟨t, ⟨hFilled, before, after, hTexts, hBefore⟩, rfl⟩
    exact ⟨before, t, after, hTexts, hBefore, hFilled, rfl⟩
  · rintro ⟨before, t, after, hTexts, hBefore, hFilled, rfl⟩
    exact ⟨t, ⟨hFilled, before, after, hTexts, hBefore⟩, rfl⟩

theorem find?_strip_eq_none_iff (texts : List Text) :
    (texts.map strip).find? (!·.isEmpty) = none ↔ ∀ t ∈ texts, t.isBlankText := by
  simp [List.find?_eq_none, strip_eq_nil_iff]

end Text

namespace Provider

/-- The places that may hold a credential for a provider, in the order in which they are looked at:
the request, and three variables. A place that is missing is blank. -/
def keyPlaces (p : Provider) (requestKey : Option Text) (env : Environment) : List Text :=
  [requestKey.getD [],
    (env.lookup ("AUDIAL_" ++ p.variableName ++ "_API_KEY")).getD [],
    (env.lookup (p.variableName ++ "_API_KEY")).getD [],
    (env.lookup ("AUDIAL_API_KEY" : Text)).getD []]

/-- What a provider's credential comes to: none is there, the first one belongs to the other
provider, or the first one is taken. -/
inductive Grants (p : Provider) (requestKey : Option Text) (env : Environment) :
    Except RequestError Text → Prop
  | missing (hBlank : ∀ t ∈ p.keyPlaces requestKey env, t.isBlankText) :
      Grants p requestKey env (.error .missingCredential)
  | foreign {key : Text} {given : Provider}
      (hKey : Text.FirstFilled (p.keyPlaces requestKey env) key)
      (hGiven : ofKey? key = some given) (hOther : given ≠ p) :
      Grants p requestKey env (.error (.credentialMismatch p given))
  | granted {key : Text} (hKey : Text.FirstFilled (p.keyPlaces requestKey env) key)
      (hOwn : ∀ given, ofKey? key = some given → given = p) :
      Grants p requestKey env (.ok key)

variable {p : Provider} {requestKey : Option Text} {env : Environment}

theorem credential?_eq_some_iff (key : Text) :
    p.credential? requestKey env = some key ↔
      Text.FirstFilled (p.keyPlaces requestKey env) key :=
  Text.find?_strip_eq_some_iff (p.keyPlaces requestKey env) key

theorem credential?_eq_none_iff :
    p.credential? requestKey env = none ↔ ∀ t ∈ p.keyPlaces requestKey env, t.isBlankText :=
  Text.find?_strip_eq_none_iff (p.keyPlaces requestKey env)

theorem grants_credential (p : Provider) (requestKey : Option Text) (env : Environment) :
    p.Grants requestKey env (p.credential requestKey env) := by
  unfold credential
  cases hFound : p.credential? requestKey env with
  | none => exact .missing (credential?_eq_none_iff.1 hFound)
  | some key =>
      have hKey := (credential?_eq_some_iff key).1 hFound
      cases hGiven : ofKey? key with
      | none =>
          simp only [hGiven]
          exact .granted hKey (by simp [hGiven])
      | some given =>
          by_cases hOwn : given = p
          · simp only [hGiven, if_pos hOwn]
            exact .granted hKey (by simp [hGiven, hOwn])
          · simp only [hGiven, if_neg hOwn]
            exact .foreign hKey hGiven hOwn

theorem Grants.credential_eq {outcome : Except RequestError Text}
    (h : p.Grants requestKey env outcome) : p.credential requestKey env = outcome := by
  unfold credential
  cases h with
  | missing hBlank => rw [credential?_eq_none_iff.2 hBlank]
  | foreign hKey hGiven hOther =>
      simp only [(credential?_eq_some_iff _).2 hKey, hGiven, if_neg hOther]
  | @granted key hKey hOwn =>
      simp only [(credential?_eq_some_iff _).2 hKey]
      cases hGiven : ofKey? key with
      | none => rfl
      | some given => exact if_pos (hOwn given hGiven)

theorem credential_eq_iff (outcome : Except RequestError Text) :
    p.credential requestKey env = outcome ↔ p.Grants requestKey env outcome := by
  constructor
  · rintro rfl
    exact grants_credential p requestKey env
  · exact Grants.credential_eq

/-- A credential that was granted for a provider does not belong to another. -/
theorem Grants.eq_of_ofKey? {key : Text} {given : Provider}
    (h : p.Grants requestKey env (.ok key)) (hGiven : ofKey? key = some given) : given = p := by
  cases h with
  | granted _ hOwn => exact hOwn given hGiven

end Provider

end Composer
