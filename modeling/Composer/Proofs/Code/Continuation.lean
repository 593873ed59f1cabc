import Composer.Proofs.Code.Calls

/-!
Code that goes on. No recogniser of the content rules looks behind what it recognises, further than
to see that a number or a word has ended, and a line feed ends both. So what is found in code is
found when more lines follow it. Behind the last call of the code there may be the beginning of
another that only the next line completes; it takes up all that is left of the code, which is why
the calls found before are still the first ones (`Call.Unbroken.prefix_findAll`).
-/

namespace Composer

namespace Text

/-- What is recognised at the start of a text is recognised there when more text follows. -/
def ReadsOn (recognise : Text → Option Text) : Prop :=
  ∀ ⦃t rest : Text⦄, recognise t = some rest →
    ∀ more, recognise (t ++ more) = some (rest ++ more)

theorem ReadsOn.isSome {recognise : Text → Option Text} (h : ReadsOn recognise) {t : Text}
    (ht : (recognise t).isSome) (more : Text) : (recognise (t ++ more)).isSome := by
  obtain ⟨rest, hRest⟩ := Option.isSome_iff_exists.1 ht
  rw [h hRest more]
  rfl

theorem ReadsOn.bind {first second : Text → Option Text} (hFirst : ReadsOn first)
    (hSecond : ReadsOn second) : ReadsOn fun t => (first t).bind second := by
  intro t rest h more
  obtain ⟨middle, hMiddle, hRest⟩ := Option.bind_eq_some_iff.1 h
  exact Option.bind_eq_some_iff.2 ⟨middle ++ more, hFirst hMiddle more, hSecond hRest more⟩

theorem readsOn_after? (lead : Text) : ReadsOn (after? lead) := by
  intro t rest h more
  rw [eq_append_of_after?_eq_some h, List.append_assoc, after?_append]

theorem readsOn_afterFolded? (lead : Text) : ReadsOn (afterFolded? lead) := by
  intro t rest h more
  induction lead generalizing t with
  | nil =>
      obtain rfl := Option.some.inj h
      rfl
  | cons l lead ih =>
      cases t with
      | nil => cases h
      | cons c t =>
          simp only [List.cons_append, afterFolded?] at h ⊢
          split at h
          · next hLetter => rw [if_pos hLetter, ih h]
          · cases h

section
variable {p : Text → Bool} {more : Text} (hp : ∀ t, p t → p (t ++ more))
include hp

theorem anywhere_append {t : Text} (h : anywhere p t) : anywhere p (t ++ more) := by
  induction t with
  | nil =>
      have hMore : p more := hp [] h
      cases more with
      | nil => exact h
      | cons c more => simp [anywhere, hMore]
  | cons c t ih =>
      simp only [List.cons_append, anywhere, Bool.or_eq_true] at h ⊢
      exact h.imp (hp (c :: t)) ih

theorem countWhere_add_le (t : Text) :
    countWhere p t + countWhere p more ≤ countWhere p (t ++ more) := by
  induction t with
  | nil => simp [countWhere]
  | cons c t ih =>
      have hHere : (if p (c :: t) then 1 else 0) ≤ (if p (c :: t ++ more) then 1 else 0) := by
        split
        · next h => rw [if_pos (hp (c :: t) h)]
        · exact Nat.zero_le _
      simp only [List.cons_append, countWhere] at hHere ⊢
      omega

end

end Text

namespace Call

open Text

/-! ### Names and parentheses -/

theorem readsOn_opening? : ReadsOn opening? := by
  intro t rest h more
  obtain ⟨gap, hGap, rfl⟩ := (opening?_eq_some_iff t rest).1 h
  exact (opening?_eq_some_iff _ _).2 ⟨gap, hGap, by simp⟩

theorem readsOn_named? (name : Text) : ReadsOn (named? name) :=
  (readsOn_after? name).bind readsOn_opening?

theorem isSome_oneOf?_append {names : List Text} {t : Text} (h : (oneOf? names t).isSome)
    (more : Text) : (oneOf? names (t ++ more)).isSome := by
  unfold oneOf? at h ⊢
  rw [List.findSome?_isSome_iff] at h ⊢
  obtain ⟨name, hName, hFound⟩ := h
  exact ⟨name, hName, (readsOn_named? name).isSome hFound more⟩

theorem isSome_methodOf?_append {names : List Text} {t : Text} (h : (methodOf? names t).isSome)
    (more : Text) : (methodOf? names (t ++ more)).isSome := by
  obtain ⟨rest, hRest⟩ := Option.isSome_iff_exists.1 h
  obtain ⟨u, hPoint, hFound⟩ := Option.bind_eq_some_iff.1 hRest
  rw [methodOf?, readsOn_after? _ hPoint more]
  exact isSome_oneOf?_append (Option.isSome_iff_exists.2 ⟨rest, hFound⟩) more

/-- Where nothing is left, no name is called. -/
theorem ne_nil_of_oneOf?_eq_some {names : List Text} {t rest : Text}
    (h : oneOf? names t = some rest) : t ≠ [] := by
  rintro rfl
  obtain ⟨name, -, hFound⟩ := List.exists_of_findSome?_eq_some h
  obtain ⟨gap, -, hText⟩ := (named?_eq_some_iff name [] rest).1 hFound
  exact absurd hText (by simp)

theorem isSome_spacedMethodOf?_append {names : List Text} {t : Text}
    (h : (spacedMethodOf? names t).isSome) (more : Text) :
    (spacedMethodOf? names (t ++ more)).isSome := by
  obtain ⟨rest, hRest⟩ := Option.isSome_iff_exists.1 h
  obtain ⟨u, hPoint, hFound⟩ := Option.bind_eq_some_iff.1 hRest
  rw [spacedMethodOf?, readsOn_after? _ hPoint more, Option.bind_some,
    skipBlanks_append (ne_nil_of_oneOf?_eq_some hFound)]
  exact isSome_oneOf?_append (Option.isSome_iff_exists.2 ⟨rest, hFound⟩) more

theorem isSome_chainedMethod?_append {t : Text} (h : (chainedMethod? t).isSome) (more : Text) :
    (chainedMethod? (t ++ more)).isSome := by
  unfold chainedMethod? at h ⊢
  cases hPoint : after? ['.'] t.skipBlanks with
  | none => simp [hPoint] at h
  | some u =>
      have hFilled : t.skipBlanks ≠ [] := by
        intro hEmpty
        rw [hEmpty] at hPoint
        cases hPoint
      rw [skipBlanks_append hFilled, readsOn_after? _ hPoint more]
      simp only [hPoint] at h
      cases hName : u.skipBlanks with
      | nil => simp [hName] at h
      | cons c v =>
          have hNamed : u.skipBlanks ≠ [] := by simp [hName]
          simp only [skipBlanks_append hNamed, hName, List.cons_append] at h ⊢
          split at h
          · next hLetter =>
              rw [if_pos hLetter]
              have hOpened : v.dropWhile isWordChar ≠ [] := by
                intro hEmpty
                rw [hEmpty] at h
                exact absurd h (by decide)
              rw [List.dropWhile_append, if_neg (by simpa only [List.isEmpty_iff] using hOpened)]
              exact readsOn_opening?.isSome h more
          · cases h

/-! ### Words -/

/-- How often something stands at the border of a word; a line feed is such a border, like the
beginning of the code. -/
theorem countAtWordBorder_add_le {p : Text → Bool} {more : Text}
    (hp : ∀ t, p t → p (t ++ lineFeed :: more)) (before : Option Char) (t : Text) :
    countAtWordBorder p before t + countAtWordBorder p none more ≤
      countAtWordBorder p before (t ++ lineFeed :: more) := by
  induction t generalizing before with
  | nil =>
      have hBorder : countAtWordBorder p (some lineFeed) more = countAtWordBorder p none more := by
        cases more with
        | nil => rfl
        | cons c more => rfl
      simp only [countAtWordBorder, List.nil_append, hBorder]
      omega
  | cons c t ih =>
      have hRest := ih (some c)
      have hHere : (if (before.any isWordChar != isWordChar c && p (c :: t)) = true then 1 else 0) ≤
          (if (before.any isWordChar != isWordChar c && p (c :: t ++ lineFeed :: more)) = true
            then 1 else 0) := by
        split
        · next h =>
            rw [Bool.and_eq_true] at h
            rw [if_pos (Bool.and_eq_true _ _ ▸ ⟨h.1, hp (c :: t) h.2⟩)]
        · exact Nat.zero_le _
      simp only [List.cons_append, countAtWordBorder] at hHere ⊢
      omega

/-! ### All calls -/

/-- A recogniser for which a line feed ends whatever it recognises. What it recognises at the start
of a text it recognises there when more lines follow. Where only they complete something, it takes
up the text to its end, and so nothing is recognised any further on in the text. -/
structure Unbroken {α : Type} (recognise : Text → Option (α × Text)) : Prop where
  shrinks : Shrinks recognise
  keeps : ∀ ⦃t : Text⦄ ⦃found : α⦄ ⦃rest : Text⦄, recognise t = some (found, rest) →
    ∀ more, recognise (t ++ lineFeed :: more) = some (found, rest ++ lineFeed :: more)
  closes : ∀ ⦃t more : Text⦄, recognise t = none → (recognise (t ++ lineFeed :: more)).isSome →
    ∀ u, u <:+ t → recognise u = none

/-- The calls of a text are the first calls of the text with more lines. -/
theorem Unbroken.prefix_findAll {α : Type} {recognise : Text → Option (α × Text)}
    (h : Unbroken recognise) (t more : Text) :
    findAll recognise t <+: findAll recognise (t ++ lineFeed :: more) := by
  induction hLength : t.length using Nat.strongRecOn generalizing t with
  | ind n ih =>
      subst hLength
      cases t with
      | nil => exact List.nil_prefix
      | cons c t =>
          rw [List.cons_append, findAll_cons h.shrinks, findAll_cons h.shrinks, ← List.cons_append]
          cases hFound : recognise (c :: t) with
          | some next =>
              rw [h.keeps hFound more]
              exact List.cons_prefix_cons.2 ⟨rfl, ih _ (h.shrinks hFound) next.2 rfl⟩
          | none =>
              cases hLonger : recognise (c :: t ++ lineFeed :: more) with
              | none => exact ih _ (Nat.lt_succ_self _) t rfl
              | some next =>
                  have hNone := h.closes hFound (Option.isSome_of_mem hLonger)
                  have hTail : findAll recognise t = [] := findAll_eq_nil h.shrinks
                    fun u hu _ => hNone u (hu.trans (List.suffix_cons c t))
                  simp only [hTail]
                  exact List.nil_prefix

/-! ### Calls with a number -/

/-- A reader of an argument that a line feed ends, whatever follows it. -/
structure ReadsArgument {α : Type} (read : Text → Option (α × Text)) : Prop where
  nil : read [] = none
  length_le : ∀ ⦃t : Text⦄ ⦃found : α⦄ ⦃rest : Text⦄, read t = some (found, rest) →
    rest.length ≤ t.length
  line : ∀ t more, read (t ++ lineFeed :: more) = (read t).map fun (found, rest) =>
    (found, rest ++ lineFeed :: more)

/-- A line feed behind the name of a method is white space; anywhere else the call has ended, or it
is none. -/
theorem named?_append_lineFeed {name : Text} (hName : lineFeed ∉ name) (t more : Text) :
    named? name (t ++ lineFeed :: more) = (named? name t).map (· ++ lineFeed :: more) ∨
      named? name t = none ∧ ∃ gap : Text, (∀ c ∈ gap, isBlank c) ∧ t = name ++ gap := by
  unfold named?
  rw [after?_append_cons hName]
  cases hFound : after? name t with
  | none => exact .inl rfl
  | some u =>
      rw [Option.map_some, Option.bind_some, Option.bind_some]
      by_cases hBlank : u.skipBlanks = []
      · have hGap : ∀ c ∈ u, isBlank c := List.dropWhile_eq_nil_iff.1 hBlank
        refine .inr ⟨?_, u, hGap, eq_append_of_after?_eq_some hFound⟩
        rw [opening?, hBlank]
        rfl
      · refine .inl ?_
        rw [opening?, opening?, skipBlanks_append hBlank, after?_append_cons (by decide)]

section
variable {α : Type} {read : Text → Option (α × Text)} {name : Text}

/-- The call of a method with an argument that is read from its start. -/
def methodWith? (read : Text → Option (α × Text)) (name t : Text) : Option (α × Text) :=
  (method? name t).bind fun u => read u.skipBlanks

theorem unbroken_methodWith? (hRead : ReadsArgument read) (hPoint : '.' ∉ name)
    (hFeed : lineFeed ∉ name) : Unbroken (methodWith? read name) := by
  have hFeed' : lineFeed ∉ '.' :: name := by
    rw [List.mem_cons]
    exact not_or.2 ⟨by decide, hFeed⟩
  -- behind the point of a call that the text breaks off there is no other
  have hNoPoint {gap : Text} (hGap : ∀ c ∈ gap, isBlank c) : '.' ∉ gap := fun h =>
    absurd (hGap '.' h) (by decide)
  have hLater {t : Text} (hTail : '.' ∉ t) (hNone : methodWith? read name ('.' :: t) = none)
      (u : Text) (hu : u <:+ '.' :: t) : methodWith? read name u = none := by
    rcases List.suffix_cons_iff.1 hu with rfl | hShorter
    · exact hNone
    · rw [methodWith?, method?_eq_none fun h => hTail (hShorter.subset h)]
      rfl
  refine ⟨?shrinks, ?keeps, ?closes⟩
  case shrinks =>
    intro t found rest h
    obtain ⟨u, hMethod, hArgument⟩ := Option.bind_eq_some_iff.1 h
    obtain ⟨gap, -, rfl⟩ := (named?_eq_some_iff _ t u).1 hMethod
    have hRest := hRead.length_le hArgument
    have hBlank := length_skipBlanks_le u
    simp only [List.length_append, List.length_cons]
    omega
  case keeps =>
    intro t found rest h more
    obtain ⟨u, hMethod, hArgument⟩ := Option.bind_eq_some_iff.1 h
    have hFilled : u.skipBlanks ≠ [] := by
      intro hEmpty
      rw [hEmpty, hRead.nil] at hArgument
      cases hArgument
    rw [methodWith?, method?, readsOn_named? _ hMethod, Option.bind_some,
      skipBlanks_append hFilled, hRead.line, hArgument]
    rfl
  case closes =>
    intro t more hNone hSome
    rcases named?_append_lineFeed hFeed' t more with hSame | ⟨-, gap, hGap, rfl⟩
    · cases hMethod : named? ('.' :: name) t with
      | none => simp [methodWith?, method?, hSame, hMethod] at hSome
      | some u =>
          have hShort : methodWith? read name t = read u.skipBlanks := by
            rw [methodWith?, method?, hMethod]
            rfl
          have hLong : methodWith? read name (t ++ lineFeed :: more) =
              read (u ++ lineFeed :: more).skipBlanks := by
            rw [methodWith?, method?, hSame, hMethod]
            rfl
          have hBlank : u.skipBlanks = [] := by
            by_contra hFilled
            rw [hLong, skipBlanks_append hFilled, hRead.line, ← hShort, hNone] at hSome
            exact absurd hSome Bool.false_ne_true
          have hRest : ∀ c ∈ u, isBlank c := List.dropWhile_eq_nil_iff.1 hBlank
          obtain ⟨gap, hGap, rfl⟩ := (named?_eq_some_iff _ t u).1 hMethod
          refine hLater (t := name ++ gap ++ '(' :: u) ?_ hNone
          simp [hPoint, hNoPoint hGap, hNoPoint hRest]
    · refine hLater (t := name ++ gap) ?_ hNone
      simp [hPoint, hNoPoint hGap]

end

theorem readsArgument_decimal? : ReadsArgument decimal? := by
  have hFeed : isDecimalDigit lineFeed = false := by decide
  refine ⟨rfl, fun t found rest h => ?_, fun t more => ?_⟩
  · have hDigits := (List.dropWhile_sublist (l := t) isDecimalDigit).length_le
    by_cases hPoint : ∃ u, t.dropWhile isDecimalDigit = '.' :: u
    · obtain ⟨u, hu⟩ := hPoint
      have hFraction := (List.dropWhile_sublist (l := u) isDecimalDigit).length_le
      rw [decimal?_of_point hu] at h
      rw [hu, List.length_cons] at hDigits
      split at h
      · cases h
      · obtain ⟨-, rfl⟩ := Prod.mk.inj (Option.some.inj h)
        omega
    · rw [decimal?_of_whole (not_exists.1 hPoint)] at h
      split at h
      · cases h
      · obtain ⟨-, rfl⟩ := Prod.mk.inj (Option.some.inj h)
        exact hDigits
  · by_cases hPoint : ∃ u, t.dropWhile isDecimalDigit = '.' :: u
    · obtain ⟨u, hu⟩ := hPoint
      have hLonger : (t ++ lineFeed :: more).dropWhile isDecimalDigit =
          '.' :: (u ++ lineFeed :: more) := by
        rw [dropWhile_append_cons hFeed, hu]
        rfl
      rw [decimal?_of_point hu, decimal?_of_point hLonger, takeWhile_append_cons hFeed,
        takeWhile_append_cons hFeed, dropWhile_append_cons hFeed]
      split <;> rfl
    · have hLonger : ∀ v, (t ++ lineFeed :: more).dropWhile isDecimalDigit ≠ '.' :: v := by
        rw [dropWhile_append_cons hFeed]
        intro v hv
        rcases List.append_eq_cons_iff.1 hv with ⟨-, hLine⟩ | ⟨u, hu, -⟩
        · exact absurd (List.cons.inj hLine).1 (by decide)
        · exact hPoint ⟨u, hu⟩
      rw [decimal?_of_whole (not_exists.1 hPoint), decimal?_of_whole hLonger,
        takeWhile_append_cons hFeed, dropWhile_append_cons hFeed]
      split <;> rfl

/-- The digits that an argument starts with. -/
def digits? (t : Text) : Option (Text × Text) :=
  match t.takeWhile isDecimalDigit with
  | [] => none
  | digits => some (digits, t.dropWhile isDecimalDigit)

theorem readsArgument_digits? : ReadsArgument digits? := by
  have hFeed : isDecimalDigit lineFeed = false := by decide
  refine ⟨rfl, fun t found rest h => ?_, fun t more => ?_⟩
  · unfold digits? at h
    split at h
    · cases h
    · obtain ⟨-, rfl⟩ := Prod.mk.inj (Option.some.inj h)
      exact (List.dropWhile_sublist isDecimalDigit).length_le
  · unfold digits?
    rw [takeWhile_append_cons hFeed, dropWhile_append_cons hFeed]
    split <;> rfl

theorem unbroken_methodWithDecimal? {name : Text} (hPoint : '.' ∉ name)
    (hFeed : lineFeed ∉ name) : Unbroken (methodWithDecimal? name) :=
  unbroken_methodWith? readsArgument_decimal? hPoint hFeed

theorem unbroken_methodWithDigits? {name : Text} (hPoint : '.' ∉ name)
    (hFeed : lineFeed ∉ name) : Unbroken (methodWithDigits? name) :=
  unbroken_methodWith? readsArgument_digits? hPoint hFeed

/-! ### Calls with a string -/

theorem unbroken_noteWithString? : Unbroken noteWithString? := by
  refine ⟨?shrinks, ?keeps, ?closes⟩
  case shrinks =>
    intro t text rest h
    obtain ⟨gap, space, -, -, -, rfl⟩ := (noteWithString?_eq_some_iff t text rest).1 h
    simp [onString]
    omega
  case keeps =>
    intro t text rest h more
    obtain ⟨gap, space, hGap, hSpace, hText, rfl⟩ := (noteWithString?_eq_some_iff t text rest).1 h
    exact (noteWithString?_eq_some_iff _ _ _).2
      ⟨gap, space, hGap, hSpace, hText, List.append_assoc ..⟩
  case closes =>
    intro t more hNone hSome u hu
    obtain ⟨⟨text, rest⟩, hFound⟩ := Option.isSome_iff_exists.1 hSome
    obtain ⟨gap, space, hGap, hSpace, hText, hLonger⟩ :=
      (noteWithString?_eq_some_iff _ text rest).1 hFound
    have hName : '"' ∉ ("note" : Text) := by decide
    have hMarks := count_onString hName hGap hSpace hText
    -- the text breaks off before the mark that closes the string, so it has one mark at most
    have hOne : t.count '"' ≤ 1 := by
      rcases List.append_eq_append_iff.1 hLonger with ⟨mid, hSpelling, -⟩ | ⟨mid, hShort, -⟩
      · rcases List.eq_nil_or_concat mid with rfl | ⟨lead, c, rfl⟩
        · rw [List.append_nil] at hSpelling
          rw [← hSpelling, (noteWithString?_eq_some_iff _ text []).2
            ⟨gap, space, hGap, hSpace, hText, (List.append_nil _).symm⟩] at hNone
          cases hNone
        · have hLast := congrArg List.getLast? hSpelling
          simp only [onString, List.concat_eq_append, ← List.append_assoc,
            List.getLast?_concat, Option.some.injEq] at hLast
          rw [hSpelling, List.concat_eq_append, List.count_append, List.count_append, ← hLast,
            List.count_singleton_self] at hMarks
          omega
      · rw [hShort, (noteWithString?_eq_some_iff _ text mid).2
          ⟨gap, space, hGap, hSpace, hText, rfl⟩] at hNone
        cases hNone
    cases hCall : noteWithString? u with
    | none => rfl
    | some next =>
        obtain ⟨gap', space', hGap', hSpace', hText', rfl⟩ :=
          (noteWithString?_eq_some_iff u next.1 next.2).1 hCall
        have hTwo := count_onString hName hGap' hSpace' hText'
        have hLess := hu.sublist.count_le '"'
        rw [List.count_append, hTwo] at hLess
        omega

end Call

end Composer
