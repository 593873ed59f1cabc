import Composer.Json.Printer
import Composer.Json.Reader

/-! Reading back what was written. A string is read back character by character, each from its own
escape; an object is read back member by member, as long as its keys are distinct. -/

namespace Composer.Json

/-- A text without control characters. -/
def Printable (t : Text) : Prop := ∀ c ∈ t, 0x20 ≤ c.toNat

instance (t : Text) : Decidable (Printable t) :=
  List.decidableBAll (fun c : Char => 0x20 ≤ c.toNat) t

theorem printable_append {s t : Text} : Printable (s ++ t) ↔ Printable s ∧ Printable t :=
  List.forall_mem_append

theorem printable_cons {c : Char} {t : Text} :
    Printable (c :: t) ↔ 0x20 ≤ c.toNat ∧ Printable t :=
  List.forall_mem_cons

theorem hexDigit_mod (n : Nat) : hexDigit (n % 16) = hexDigit n := by
  unfold hexDigit
  rw [Nat.mod_mod]

theorem printable_hex (width n : Nat) : Printable (Text.hex width n) := by
  have hDigits : ∀ m < 16, Printable [hexDigit m] := by decide
  induction width generalizing n with
  | zero => exact List.forall_mem_nil _
  | succ width ih =>
      refine printable_append.2 ⟨ih (n / 16), ?_⟩
      rw [← hexDigit_mod]
      exact hDigits (n % 16) (Nat.mod_lt n (by decide))

/-- The three ways in which a character is written inside a string: as itself, by a letter, or by its
number. -/
inductive EscapedAs (c : Char) : Text → Prop where
  | itself (hQuote : c ≠ '"') (hBackslash : c ≠ '\\') (hPlain : 0x20 ≤ c.toNat) : EscapedAs c [c]
  | letter {e : Char} (hShort : Reader.shortEscape? e = some c) (hNumber : e ≠ 'u')
      (hPlain : 0x20 ≤ e.toNat) : EscapedAs c ['\\', e]
  | number (hControl : c.toNat < 0x20) : EscapedAs c ('\\' :: 'u' :: Text.hex 4 c.toNat)

theorem escapedAs_escapeChar (c : Char) : EscapedAs c (escapeChar c) := by
  have hLetter : ∀ {d : Char} (e : Char), c = d → Reader.shortEscape? e = some d → e ≠ 'u' →
      0x20 ≤ e.toNat → EscapedAs c ['\\', e] := by
    rintro d e rfl hShort hNumber hPlain
    exact .letter hShort hNumber hPlain
  unfold escapeChar
  by_cases hQuote : c = '"'
  · rw [if_pos hQuote]
    exact hLetter '"' hQuote rfl (by decide) (by decide)
  rw [if_neg hQuote]
  by_cases hBackslash : c = '\\'
  · rw [if_pos hBackslash]
    exact hLetter '\\' hBackslash rfl (by decide) (by decide)
  rw [if_neg hBackslash]
  split
  · next h => exact hLetter 'b' h rfl (by decide) (by decide)
  split
  · next h => exact hLetter 't' h rfl (by decide) (by decide)
  split
  · next h => exact hLetter 'n' h rfl (by decide) (by decide)
  split
  · next h => exact hLetter 'f' h rfl (by decide) (by decide)
  split
  · next h => exact hLetter 'r' h rfl (by decide) (by decide)
  split
  · next hControl => exact .number hControl
  · next hControl => exact .itself hQuote hBackslash (Nat.le_of_not_lt hControl)

theorem EscapedAs.printable {c : Char} {t : Text} (h : EscapedAs c t) : Printable t := by
  cases h with
  | itself hQuote hBackslash hPlain => exact List.forall_mem_singleton.2 hPlain
  | letter hShort hNumber hPlain =>
      exact printable_cons.2 ⟨by decide, List.forall_mem_singleton.2 hPlain⟩
  | number hControl =>
      exact printable_append.2 ⟨(by decide : Printable ['\\', 'u']), printable_hex 4 c.toNat⟩

/-- No character is written so that it could be taken for the end of the string. -/
theorem EscapedAs.exists_cons {c : Char} {t : Text} (h : EscapedAs c t) :
    ∃ first rest, t = first :: rest ∧ first ≠ '"' := by
  cases h with
  | itself hQuote hBackslash hPlain => exact ⟨c, [], rfl, hQuote⟩
  | letter hShort hNumber hPlain => exact ⟨_, _, rfl, by decide⟩
  | number hControl => exact ⟨_, _, rfl, by decide⟩

theorem printable_writeString (t : Text) : Printable (writeString t) := by
  refine printable_cons.2 ⟨by decide, printable_append.2 ⟨fun d hd => ?_, by decide⟩⟩
  obtain ⟨c, -, hd⟩ := List.mem_flatMap.1 hd
  exact (escapedAs_escapeChar c).printable d hd

theorem printable_writeMembers {ms : List (Text × Json)}
    (hItems : ∀ m ∈ ms, Printable (write m.2)) : Printable (writeMembers ms) := by
  induction ms with
  | nil => exact List.forall_mem_nil _
  | cons m ms ih =>
      obtain ⟨key, item⟩ := m
      obtain ⟨hItem, hItems⟩ := List.forall_mem_cons.1 hItems
      have hMember : Printable (writeString key ++ ':' :: write item) :=
        printable_append.2 ⟨printable_writeString key, printable_cons.2 ⟨by decide, hItem⟩⟩
      cases ms with
      | nil => exact hMember
      | cons m ms =>
          rw [writeMembers]
          · exact printable_append.2 ⟨hMember, printable_cons.2 ⟨by decide, ih hItems⟩⟩
          · exact List.cons_ne_nil m ms

/-- A value that is made of texts: a text, or an object of such values whose keys are distinct. Objects
are nested in it through so many levels at most. -/
inductive Textual : Nat → Json → Prop where
  | str {levels : Nat} (t : Text) : Textual levels (.str t)
  | obj {levels : Nat} {ms : List (Text × Json)} (hNonempty : ms ≠ [])
      (hKeys : (ms.map Prod.fst).Nodup) (hItems : ∀ m ∈ ms, Textual levels m.2) :
      Textual (levels + 1) (.obj ms)

/-- A value made of texts is written on one line. -/
theorem Textual.printable {levels : Nat} {j : Json} (h : Textual levels j) :
    Printable (write j) := by
  induction h with
  | str t => exact printable_writeString t
  | obj hNonempty hKeys hItems ih =>
      refine printable_cons.2 ⟨by decide, printable_append.2 ⟨?_, by decide⟩⟩
      exact printable_writeMembers ih

namespace Reader

@[simp] theorem hexDigit?_hexDigit (n : Nat) : hexDigit? (hexDigit n) = some (n % 16) := by
  have hDigits : ∀ m < 16, hexDigit? (hexDigit m) = some m := by decide
  rw [← hexDigit_mod]
  exact hDigits (n % 16) (Nat.mod_lt n (by decide))

theorem hexQuad?_hex {n : Nat} (h : n < 65536) (rest : Text) :
    hexQuad? (Text.hex 4 n ++ rest) = some (n, rest) := by
  simp only [Text.hex, List.nil_append, List.cons_append, hexQuad?, hexDigit?_hexDigit,
    Option.some.injEq, Prod.mk.injEq, and_true]
  omega

/-- A character is read from what is written for it. The text must go on behind it, as it does before
a closing quotation mark: an escape by number is not read at the very end. -/
theorem codePoint_of_escapedAs (start : Nat) {c : Char} {t more : Text} (h : EscapedAs c t)
    (hMore : more ≠ []) : codePoint start (t ++ more) = .ok (.char c, more) := by
  cases h with
  | itself hQuote hBackslash hPlain => simp [codePoint, hBackslash, Nat.not_lt.2 hPlain]
  | letter hShort hNumber hPlain => simp [codePoint, hShort]
  | number hControl =>
      have hLow : ¬ (0xD800 ≤ c.toNat ∧ c.toNat < 0xDC00) := by omega
      have hHigh : ¬ (0xDC00 ≤ c.toNat ∧ c.toNat < 0xE000) := by omega
      simp only [List.cons_append, codePoint, hexQuad?_hex (show c.toNat < 65536 by omega),
        List.isEmpty_eq_false_iff.2 hMore, hLow, hHigh]
      simp

theorem codePoints_write (start : Nat) (t rest : Text) {fuel : Nat} (hFuel : t.length < fuel) :
    codePoints start fuel (t.flatMap escapeChar ++ '"' :: rest) = .ok (t.widen, rest) := by
  induction t generalizing fuel with
  | nil =>
      obtain ⟨fuel, rfl⟩ := Nat.exists_eq_add_of_lt hFuel
      rfl
  | cons c t ih =>
      obtain ⟨fuel, rfl⟩ := Nat.exists_eq_succ_of_ne_zero (Nat.ne_zero_of_lt hFuel)
      have hEscaped := escapedAs_escapeChar c
      rw [List.flatMap_cons, List.append_assoc, codePoints, codePoint_of_escapedAs _ hEscaped]
      · simp [ih (Nat.lt_of_succ_lt_succ hFuel), Except.map]
      · simp
      · obtain ⟨first, more, hFirst, hQuote⟩ := hEscaped.exists_cons
        rw [hFirst]
        rintro u hHead
        exact hQuote (List.cons.inj hHead).1

theorem length_le_length_flatMap_escapeChar (t : Text) :
    t.length ≤ (t.flatMap escapeChar).length := by
  induction t with
  | nil => exact Nat.le_refl 0
  | cons c t ih =>
      obtain ⟨first, more, hFirst, -⟩ := (escapedAs_escapeChar c).exists_cons
      rw [List.flatMap_cons, List.length_append, List.length_cons, hFirst, List.length_cons]
      omega

/-- A written string is read back behind its opening quotation mark. -/
theorem string_write (admitBroken : Bool) (t rest : Text) :
    string admitBroken (t.flatMap escapeChar ++ '"' :: rest) = .ok (t.widen, rest) := by
  have hLength := length_le_length_flatMap_escapeChar t
  rw [string, codePoints_write _ t rest (by rw [List.length_append]; omega)]
  simp

theorem skipSpaces_cons {c : Char} (h : isSpace c = false) (t : Text) :
    skipSpaces (c :: t) = c :: t := by
  rw [skipSpaces, List.dropWhile_cons_of_neg (by simp [h])]

end Reader

theorem setMember_of_not_mem {key : Text} {before : List (Text × Json)}
    (h : key ∉ before.map Prod.fst) (value : Json) :
    setMember key value before = before ++ [(key, value)] := by
  induction before with
  | nil => rfl
  | cons m before ih =>
      rw [List.map_cons, List.mem_cons, not_or] at h
      rw [setMember, if_neg (Ne.symm h.1), ih h.2, List.cons_append]

/-- A written value is read back, whatever follows it, when there are three steps for each of its
characters, and as many levels of nesting as given. -/
structure ReadsBack (levels : Nat) (j : Json) : Prop where
  start : ∀ rest, Reader.skipSpaces (write j ++ rest) = write j ++ rest
  value : ∀ admitBroken fuel depth rest, 3 * (write j).length ≤ fuel → levels ≤ depth →
    Reader.value admitBroken fuel depth (write j ++ rest) = .ok (j, rest)

theorem readsBack_str (levels : Nat) (t : Text) : ReadsBack levels (.str t) := by
  constructor
  · exact fun rest => Reader.skipSpaces_cons rfl _
  · intro admitBroken fuel depth rest hFuel _
    have hLength : 0 < (write (.str t)).length := Nat.zero_lt_succ _
    obtain ⟨fuel, rfl⟩ := Nat.exists_eq_succ_of_ne_zero (show fuel ≠ 0 by omega)
    simp only [write, writeString, List.cons_append, List.append_assoc, List.nil_append,
      Reader.value]
    rw [Reader.string_write]
    simp [Except.map]

section
variable {levels : Nat}

/-- How reading goes on after a member: with the next one, or past the closing brace. -/
def Reader.afterMember (admitBroken : Bool) (fuel depth : Nat) (found : List (Text × Json))
    (t : Text) : Except ReadError (List (Text × Json) × Text) :=
  match skipSpaces t with
  | ',' :: w => members admitBroken fuel depth found (skipSpaces w)
  | '\x7d' :: w => .ok (found, w)
  | w => complain .noComma w

/-- A written member with a new key is found. -/
theorem members_write_cons {key : Text} {item : Json} (hItem : ReadsBack levels item)
    {before : List (Text × Json)} (hNew : key ∉ before.map Prod.fst) (admitBroken : Bool)
    {fuel depth : Nat} (hFuel : 3 * (write item).length ≤ fuel) (hDepth : levels ≤ depth) (rest : Text) :
    Reader.members admitBroken (fuel + 2) depth before
        (writeString key ++ ':' :: write item ++ rest) =
      Reader.afterMember admitBroken fuel depth (before ++ [(key, item)]) rest := by
  simp only [writeString, List.cons_append, List.append_assoc, List.nil_append, Reader.members]
  rw [Reader.string_write]
  simp only [Reader.memberValue]
  rw [Reader.skipSpaces_cons rfl]
  simp only [hItem.start, hItem.value admitBroken fuel depth rest hFuel hDepth, Reader.addMember,
    WideText.narrow?_widen, setMember_of_not_mem hNew]
  rfl

theorem exists_writeMembers_eq_cons {ms : List (Text × Json)} (hNonempty : ms ≠ []) :
    ∃ t, writeMembers ms = '"' :: t := by
  obtain ⟨⟨key, item⟩, ms, rfl⟩ := List.exists_cons_of_ne_nil hNonempty
  cases ms <;> exact ⟨_, rfl⟩

theorem skipSpaces_writeMembers {ms : List (Text × Json)} (hNonempty : ms ≠ []) (rest : Text) :
    Reader.skipSpaces (writeMembers ms ++ rest) = writeMembers ms ++ rest := by
  obtain ⟨t, hStart⟩ := exists_writeMembers_eq_cons hNonempty
  rw [hStart, List.cons_append, Reader.skipSpaces_cons rfl]

theorem length_writeMembers_cons (key : Text) (item : Json) (ms : List (Text × Json)) :
    (write item).length + (writeMembers ms).length < (writeMembers ((key, item) :: ms)).length := by
  cases ms with
  | nil => simp [writeMembers]; omega
  | cons m ms => simp [writeMembers]; omega

theorem members_write {ms : List (Text × Json)} (hItems : ∀ m ∈ ms, ReadsBack levels m.2)
    (hNonempty : ms ≠ []) (before : List (Text × Json))
    (hKeys : ((before ++ ms).map Prod.fst).Nodup) (admitBroken : Bool) {fuel depth : Nat}
    (hFuel : 3 * (writeMembers ms).length ≤ fuel) (hDepth : levels ≤ depth) (rest : Text) :
    Reader.members admitBroken fuel depth before (writeMembers ms ++ '\x7d' :: rest) =
      .ok (before ++ ms, rest) := by
  induction ms generalizing before fuel with
  | nil => exact absurd rfl hNonempty
  | cons m ms ih =>
      obtain ⟨key, item⟩ := m
      obtain ⟨hItem, hItems⟩ : ReadsBack levels item ∧ ∀ m ∈ ms, ReadsBack levels m.2 :=
        List.forall_mem_cons.1 hItems
      obtain ⟨hNew, hKeys⟩ : key ∉ before.map Prod.fst ∧
          ((before ++ [(key, item)] ++ ms).map Prod.fst).Nodup := by
        rw [List.append_assoc, List.singleton_append]
        refine ⟨fun hMem => ?_, hKeys⟩
        rw [List.map_append, List.map_cons, List.nodup_append] at hKeys
        exact hKeys.2.2 key hMem key List.mem_cons_self rfl
      have hLength := length_writeMembers_cons key item ms
      obtain ⟨fuel, rfl⟩ := Nat.exists_eq_add_of_le' (show 2 ≤ fuel by omega)
      cases ms with
      | nil => exact members_write_cons hItem hNew admitBroken (by omega) hDepth ('\x7d' :: rest)
      | cons m ms =>
          have hMore := List.cons_ne_nil m ms
          have hLater : Reader.members admitBroken fuel depth (before ++ [(key, item)])
              (writeMembers (m :: ms) ++ '\x7d' :: rest) =
                .ok (before ++ [(key, item)] ++ m :: ms, rest) :=
            ih hItems hMore (before ++ [(key, item)]) hKeys (by omega)
          rw [writeMembers, List.append_assoc, List.cons_append,
            members_write_cons hItem hNew admitBroken (by omega) hDepth, Reader.afterMember,
            Reader.skipSpaces_cons rfl]
          · simp only [skipSpaces_writeMembers hMore, hLater, List.append_assoc,
              List.singleton_append]
          · exact hMore

/-- An object is read back when its keys are distinct and its values are read back. -/
theorem readsBack_obj {ms : List (Text × Json)} (hItems : ∀ m ∈ ms, ReadsBack levels m.2)
    (hNonempty : ms ≠ []) (hKeys : (ms.map Prod.fst).Nodup) : ReadsBack (levels + 1) (.obj ms) := by
  constructor
  · exact fun rest => Reader.skipSpaces_cons rfl _
  · intro admitBroken fuel depth rest hFuel hDepth
    have hLength : (write (.obj ms)).length = (writeMembers ms).length + 2 := by simp [write]
    obtain ⟨fuel, rfl⟩ := Nat.exists_eq_succ_of_ne_zero (show fuel ≠ 0 by omega)
    obtain ⟨depth, rfl⟩ := Nat.exists_eq_succ_of_ne_zero (show depth ≠ 0 by omega)
    have hMembers : Reader.members admitBroken fuel depth [] (writeMembers ms ++ '\x7d' :: rest) =
        .ok (ms, rest) :=
      members_write hItems hNonempty [] hKeys admitBroken (by omega) (by omega) rest
    simp only [write, List.cons_append, List.append_assoc, List.nil_append, Reader.value,
      skipSpaces_writeMembers hNonempty]
    obtain ⟨t, hStart⟩ := exists_writeMembers_eq_cons hNonempty
    rw [hStart, List.cons_append] at hMembers ⊢
    change Except.map _ (Reader.members admitBroken fuel depth [] ('"' :: (t ++ '\x7d' :: rest))) = _
    rw [hMembers]
    rfl

theorem Textual.readsBack {j : Json} (h : Textual levels j) : ReadsBack levels j := by
  induction h with
  | str t => exact readsBack_str _ t
  | obj hNonempty hKeys hItems ih => exact readsBack_obj ih hNonempty hKeys

/-- A value made of texts is the value of its own text. -/
theorem Textual.read_write {d : Dialect} {j : Json} (h : Textual levels j)
    (hLevels : levels ≤ d.depth) : read d (write j) = .ok j := by
  have hMark : (write j).head? ≠ some byteOrderMark := by
    cases h with
    | str t => simp [write, writeString, byteOrderMark]
    | obj hNonempty hKeys hItems => simp [write, byteOrderMark]
  have hStart := h.readsBack.start []
  have hValue := h.readsBack.value d.admitBroken (3 * (write j).length + 3) d.depth []
    (Nat.le_add_right _ 3) hLevels
  rw [List.append_nil] at hStart hValue
  rw [read, if_neg hMark, hStart, hValue]
  rfl

end

end Composer.Json
