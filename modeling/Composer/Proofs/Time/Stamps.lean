import Composer.Proofs.Text.Digits
import Composer.Proofs.Time.Calendar
import Composer.Time.Reading

/-!
Stamps and instants. An instant within the calendar has a stamp in universal time, which exists and
is at that instant. A stamp that is written out is read back as it was.
-/

namespace Composer

namespace Stamp

/-! ### Instants -/

theorem missingYear?_eq_none_iff {t : Int} :
    missingYear? t = none ↔ 2 ≤ dayOf t ∧ dayOf t ≤ Date.lastNumber := by
  unfold missingYear?
  split
  · next hOutside => exact iff_of_false (by simp) (by omega)
  · split
    · next hFirst => exact iff_of_false (by simp) (by omega)
    · next hInside hLater => exact iff_of_true rfl (by omega)

theorem instant_ofInstant {t : Int} (hDay : 1 ≤ dayOf t) : (ofInstant t).instant = t := by
  have hNumber : (((Date.ofNumber (dayOf t).toNat).number : Nat) : Int) = t / perDay + epoch := by
    rw [Date.number_ofNumber (by omega), Int.toNat_of_nonneg (by omega)]
    rfl
  simp only [instant, ofInstant, hNumber, Option.getD_some, clockMicroseconds]
  have hSplit := Int.mul_ediv_add_emod t perDay
  have hNonneg := Int.emod_nonneg t (show (perDay : Int) ≠ 0 by decide)
  simp only [perDay, perSecond] at hSplit hNonneg ⊢
  omega

theorem isValid_ofInstant {t : Int} (hDay : 1 ≤ dayOf t) (hLast : dayOf t ≤ Date.lastNumber) :
    (ofInstant t).isValid := by
  have hDate : (ofInstant t).date.isValid :=
    Date.isValid_ofNumber (by omega) (by omega)
  have hBelow := Int.emod_lt_of_pos t (show (0 : Int) < perDay by decide)
  have hNonneg := Int.emod_nonneg t (show (perDay : Int) ≠ 0 by decide)
  simp only [isValid, hDate, Bool.true_and, Bool.and_eq_true, decide_eq_true_eq]
  simp only [ofInstant, perDay, perSecond] at hBelow hNonneg ⊢
  omega

/-- The day of a stamp without offset is the day of its instant. -/
theorem dayOf_instant {s : Stamp} (hValid : s.isValid) (hLocal : s.offset = none) :
    dayOf s.instant = s.date.number := by
  simp only [isValid, Bool.and_eq_true, decide_eq_true_eq] at hValid
  obtain ⟨⟨⟨⟨-, hHour⟩, hMinute⟩, hSecond⟩, hMicrosecond⟩ := hValid
  simp only [dayOf, instant, clockMicroseconds, hLocal, Option.getD_none, perDay, perSecond]
    at hMicrosecond ⊢
  omega

/-- Of the days that exist, the local time is missing on the first one only. -/
theorem missingYear?_instant_eq_none_iff {s : Stamp} (hValid : s.isValid)
    (hLocal : s.offset = none) : missingYear? s.instant = none ↔ s.date ≠ ⟨1, 1, 1⟩ := by
  have hDate : s.date.isValid := by
    simp only [isValid, Bool.and_eq_true] at hValid
    exact hValid.1.1.1.1
  obtain ⟨hFirst, hLast, hOne⟩ := Date.number_of_isValid hDate
  rw [missingYear?_eq_none_iff, dayOf_instant hValid hLocal, ne_eq, ← hOne]
  omega

theorem isValid_of_ofText? {t : Text} {s : Stamp} (h : ofText? t = some s) : s.isValid :=
  (Option.filter_eq_some_iff.1 h).2

/-! ### Reading what was written -/

/-- A stamp that can be written: it exists, and its offset is less than a day and no mere part of a
second. -/
structure WellFormed (s : Stamp) : Prop where
  valid : s.isValid
  offset : ∀ o ∈ s.offset, o.natAbs < perDay ∧ (o ≠ 0 → perSecond ≤ o.natAbs)

/-- A stamp that can be written, whatever its offset of less than a day. -/
structure Writable (s : Stamp) : Prop where
  valid : s.isValid
  offset : ∀ o ∈ s.offset, o.natAbs < perDay

theorem WellFormed.writable {s : Stamp} (h : s.WellFormed) : s.Writable where
  valid := h.valid
  offset o ho := (h.offset o ho).1

/-- An offset as it is read: a mere part of a second is none at all. -/
def wholeOffset (o : Int) : Int := if o.natAbs < perSecond then 0 else o

/-- A stamp as it is read after it was written. -/
def readBack (s : Stamp) : Stamp := { s with offset := s.offset.map wholeOffset }

theorem WellFormed.readBack_eq {s : Stamp} (h : s.WellFormed) : s.readBack = s := by
  have hWhole : ∀ o ∈ s.offset, wholeOffset o = o := by
    intro o ho
    have hSecond := (h.offset o ho).2
    unfold wholeOffset
    split <;> omega
  rw [readBack]
  cases hOffset : s.offset with
  | none => rw [Option.map_none, ← hOffset]
  | some o => rw [Option.map_some, hWhole o hOffset, ← hOffset]

theorem wellFormed_ofInstant {t : Int} (hDay : 1 ≤ dayOf t) (hLast : dayOf t ≤ Date.lastNumber) :
    (ofInstant t).WellFormed where
  valid := isValid_ofInstant hDay hLast
  offset := by
    rintro o ho
    obtain rfl := Option.some.inj ho
    decide

theorem digits?_append {width n : Nat} (hWidth : 1 ≤ width) (hFits : n < 10 ^ width) (rest : Text) :
    digits? width (Text.ofNatPadded width n ++ rest) = some (n, rest) := by
  have hLength := Text.length_ofNatPadded hWidth hFits
  rw [digits?, List.take_left' hLength, List.drop_left' hLength, if_pos
    ⟨hLength, Text.all_ofNatPadded width n⟩, digitsValue_ofNatPadded]

theorem fraction?_ofNatPadded {us : Nat} (h : us < perSecond) :
    fraction? (Text.ofNatPadded 6 us) = some (us, false) := by
  have hLength := Text.length_ofNatPadded (by decide : 1 ≤ 6) h
  rw [fraction?, ← List.append_nil (Text.ofNatPadded 6 us), List.take_left' hLength,
    List.drop_left' hLength, if_pos (Text.all_ofNatPadded 6 us), digitsValue_ofNatPadded, hLength]
  simp [isLeftOver]

theorem clockFrom?_colon {count n : Nat} {separated : Option Bool} {c : Char} {rest : Text}
    (hn : n < 100) (hSeparated : separated.getD true = true) :
    clockFrom? (count + 1) separated (Text.ofNatPadded 2 n ++ ':' :: c :: rest) =
      (clockFrom? count (some true) (c :: rest)).map fun k =>
        { k with numbers := n :: k.numbers } := by
  rw [clockFrom?, digits?_append (by decide) hn]
  simp only [isSingle, beq_self_eq_true, hSeparated, Bool.and_self, if_true, Bool.false_eq_true,
    if_false]

theorem exists_cons_ofNatPadded (width n : Nat) (rest : Text) :
    ∃ c more, Text.ofNatPadded width n ++ rest = c :: more ∧ isAsciiDigit c := by
  have hDigits := Text.all_ofNatPadded width n
  cases hText : Text.ofNatPadded width n with
  | nil =>
      obtain ⟨k, hLength, -⟩ := Text.length_ofNat n
      have hEmpty := congrArg List.length hText
      rw [Text.ofNatPadded, List.length_append, hLength, List.length_nil] at hEmpty
      omega
  | cons c more =>
      rw [hText, List.all_cons, Bool.and_eq_true] at hDigits
      exact ⟨c, more ++ rest, rfl, hDigits.1⟩

/-- The last number of a time, with the fraction of a second. -/
theorem clockFrom?_last {n us : Nat} (count : Nat) (separated : Option Bool) (hn : n < 100)
    (hus : us < perSecond) :
    clockFrom? (count + 1) separated (Text.ofNatPadded 2 n ++ fractionText us) =
      some ⟨[n], us, false⟩ := by
  rw [clockFrom?, digits?_append (by decide) hn, fractionText]
  by_cases hNone : us = 0
  · simp [hNone]
  · obtain ⟨d, more, hDigits, -⟩ := exists_cons_ofNatPadded 6 us []
    rw [List.append_nil] at hDigits
    have hLong : isSingle ('.' :: Text.ofNatPadded 6 us) = false := by
      rw [hDigits]
      rfl
    simp [if_neg hNone, hLong, fraction?_ofNatPadded hus]

theorem pair_append (a b : Nat) (rest : Text) :
    pair a b ++ rest = Text.ofNatPadded 2 a ++ ':' :: (Text.ofNatPadded 2 b ++ rest) := by
  simp [pair]

/-- A time of three numbers. -/
theorem clock?_full {h m s us : Nat} (hh : h < 100) (hm : m < 100) (hs : s < 100)
    (hus : us < perSecond) :
    clock? (pair h m ++ ':' :: (Text.ofNatPadded 2 s ++ fractionText us)) =
      some ⟨[h, m, s], us, false⟩ := by
  obtain ⟨c, more, hMinutes, -⟩ :=
    exists_cons_ofNatPadded 2 m (':' :: (Text.ofNatPadded 2 s ++ fractionText us))
  obtain ⟨d, later, hSeconds, -⟩ := exists_cons_ofNatPadded 2 s (fractionText us)
  rw [clock?, pair_append, hMinutes, clockFrom?_colon hh rfl, ← hMinutes, hSeconds,
    clockFrom?_colon hm rfl, ← hSeconds, clockFrom?_last 0 _ hs hus]
  rfl

/-- A time of two numbers. -/
theorem clock?_pair {h m : Nat} (hh : h < 100) (hm : m < 100) :
    clock? (pair h m) = some ⟨[h, m], 0, false⟩ := by
  obtain ⟨c, more, hMinutes, -⟩ := exists_cons_ofNatPadded 2 m (fractionText 0)
  have hPair : pair h m =
      Text.ofNatPadded 2 h ++ ':' :: (Text.ofNatPadded 2 m ++ fractionText 0) := by
    simp [pair, fractionText]
  rw [clock?, hPair, hMinutes, clockFrom?_colon hh rfl, ← hMinutes,
    clockFrom?_last 1 _ hm (by decide)]
  rfl

theorem fractionText_eq_nil_iff {us : Nat} : fractionText us = [] ↔ us = 0 := by
  unfold fractionText
  split <;> simp [*]

/-- What stands behind the sign of an offset. -/
def sizeText (size : Nat) : Text :=
  pair (size / perSecond / 3600) (size / perSecond / 60 % 60) ++
    (if size / perSecond % 60 = 0 ∧ fractionText (size % perSecond) = [] then []
    else ':' :: (Text.ofNatPadded 2 (size / perSecond % 60) ++ fractionText (size % perSecond)))

theorem offsetText_eq (o : Int) :
    offsetText o = (if o < 0 then '-' else '+') :: sizeText o.natAbs := rfl

/-- The size of an offset is read as a time. -/
theorem exists_clock?_sizeText {size : Nat} (hDay : size < perDay) :
    ∃ k, clock? (sizeText size) = some k ∧ k.leftOver = false ∧ k.microseconds = size := by
  have hHours : size / perSecond / 3600 < 100 := by
    simp only [perDay, perSecond] at hDay ⊢
    omega
  have hMinutes : size / perSecond / 60 % 60 < 100 := by omega
  have hSeconds : size / perSecond % 60 < 100 := by omega
  have hFraction : size % perSecond < perSecond := Nat.mod_lt _ (by decide)
  unfold sizeText
  by_cases hShort : size / perSecond % 60 = 0 ∧ fractionText (size % perSecond) = []
  · rw [if_pos hShort, List.append_nil]
    refine ⟨_, clock?_pair hHours hMinutes, rfl, ?_⟩
    rw [fractionText_eq_nil_iff] at hShort
    simp only [Clock.microseconds, clockMicroseconds, List.getD_cons_zero, List.getD_cons_succ,
      List.getD_nil]
    have hSplit := Nat.div_add_mod size perSecond
    generalize size / perSecond = seconds at *
    simp only [perSecond] at *
    omega
  · rw [if_neg hShort]
    refine ⟨_, clock?_full hHours hMinutes hSeconds hFraction, rfl, ?_⟩
    simp only [Clock.microseconds, clockMicroseconds, List.getD_cons_zero, List.getD_cons_succ]
    have hSplit := Nat.div_add_mod size perSecond
    generalize size / perSecond = seconds at *
    simp only [perSecond] at *
    omega

theorem offset?_cons {sign : Char} (hSign : sign ≠ 'Z') {body : Text} {k : Clock}
    (hClock : clock? body = some k) (hLeftOver : k.leftOver = false)
    (hDay : k.microseconds < perDay) :
    offset? (sign :: body) = some (if k.microseconds < perSecond then 0
      else if sign = '-' then -(k.microseconds : Int) else k.microseconds) := by
  unfold offset?
  split
  · next hZulu => exact absurd (List.cons.inj hZulu).1 hSign
  · next hCons =>
      obtain ⟨rfl, rfl⟩ := List.cons.inj hCons
      simp only [hClock, hLeftOver, Bool.false_or, decide_eq_true_eq, Nat.not_le.2 hDay, if_false,
        beq_iff_eq]
      split <;> rfl
  · next hNil => exact absurd hNil (List.cons_ne_nil _ _)

/-- An offset is read back, as far as it has whole seconds. -/
theorem offset?_offsetText {o : Int} (hDay : o.natAbs < perDay) :
    offset? (offsetText o) = some (wholeOffset o) := by
  obtain ⟨k, hClock, hLeftOver, hSize⟩ := exists_clock?_sizeText hDay
  have hSign : (if o < 0 then '-' else '+') ≠ 'Z' := by split <;> decide
  rw [offsetText_eq, wholeOffset, offset?_cons hSign hClock hLeftOver (by omega), hSize]
  by_cases hPart : o.natAbs < perSecond
  · rw [if_pos hPart, if_pos hPart]
  · rw [if_neg hPart, if_neg hPart]
    by_cases hWest : o < 0
    · rw [if_pos hWest, if_pos rfl]
      congr 1
      omega
    · rw [if_neg hWest, if_neg (by decide)]
      congr 1
      omega

theorem date?_dayText {s : Stamp} (hDate : s.date.isValid) (rest : Text) :
    date? (s.dayText ++ rest) = some (s.date, rest) := by
  simp only [Date.isValid, Bool.and_eq_true, decide_eq_true_eq] at hDate
  obtain ⟨⟨⟨⟨⟨-, hYear⟩, -⟩, hMonth⟩, -⟩, hDay⟩ := hDate
  have hYearFits : s.date.year < 10 ^ 4 := Nat.lt_succ_of_le hYear
  have hDayFits : s.date.day < 100 := by
    have hLongest := Date.monthLengths_le s.date.year (s.date.month - 1)
    omega
  obtain ⟨c, more, hCons, hDigit⟩ :=
    exists_cons_ofNatPadded 2 s.date.month ('-' :: (Text.ofNatPadded 2 s.date.day ++ rest))
  have hOther : c ≠ 'W' := ne_of_isAsciiDigit hDigit (by decide)
  have hText : s.dayText ++ rest = Text.ofNatPadded 4 s.date.year ++ '-' :: c :: more := by
    simp [dayText, ← hCons]
  rw [hText, date?, digits?_append (by decide) hYearFits]
  simp only [List.head?_cons, List.drop_succ_cons, List.drop_zero, if_true, Option.bind_eq_bind,
    Option.bind_some]
  split
  · next hWeek => exact absurd (List.cons.inj hWeek).1 hOther
  · rw [← hCons, digits?_append (by decide) (by omega)]
    simp only [Option.bind_some, Text.after?, if_true, digits?_append (by decide : 1 ≤ 2) hDayFits]
    rfl

theorem startsOffset_eq_false (h m s us : Nat) :
    ∀ c ∈ pair h m ++ ':' :: (Text.ofNatPadded 2 s ++ fractionText us), startsOffset c = false := by
  have hDigits : ∀ width n, ∀ c ∈ Text.ofNatPadded width n, startsOffset c = false := by
    intro width n c hc
    have hDigit := List.all_eq_true.1 (Text.all_ofNatPadded width n) c hc
    have hPlus : c ≠ '+' := ne_of_isAsciiDigit hDigit (by decide)
    have hMinus : c ≠ '-' := ne_of_isAsciiDigit hDigit (by decide)
    have hZulu : c ≠ 'Z' := ne_of_isAsciiDigit hDigit (by decide)
    simp [startsOffset, hPlus, hMinus, hZulu]
  intro c hc
  simp only [pair, fractionText, List.append_assoc, List.cons_append, List.mem_append,
    List.mem_cons] at hc
  rcases hc with hc | rfl | hc | rfl | hc | hc
  · exact hDigits _ _ c hc
  · decide
  · exact hDigits _ _ c hc
  · decide
  · exact hDigits _ _ c hc
  · split at hc
    · exact absurd hc List.not_mem_nil
    · rcases List.mem_cons.1 hc with rfl | hc
      · decide
      · exact hDigits _ _ c hc

/-- The time of a stamp and its offset. -/
theorem ofClock?_eq {date : Date} {h m s us : Nat} {offset : Option Int} (hh : h < 100)
    (hm : m < 100) (hs : s < 100) (hus : us < perSecond)
    (hOffset : ∀ o ∈ offset, o.natAbs < perDay) :
    ofClock? date ((pair h m ++ ':' :: (Text.ofNatPadded 2 s ++ fractionText us)) ++
      offset.elim [] offsetText) = some ⟨date, h, m, s, us, offset.map wholeOffset⟩ := by
  have hClock := clock?_full hh hm hs hus
  have hChars := startsOffset_eq_false h m s us
  generalize pair h m ++ ':' :: (Text.ofNatPadded 2 s ++ fractionText us) = clock at hClock hChars ⊢
  have hAll : ∀ c ∈ clock, (!startsOffset c) = true := by simpa using hChars
  unfold ofClock?
  rw [List.takeWhile_append_of_pos hAll, List.dropWhile_append_of_pos hAll]
  cases offset with
  | none =>
      simp only [Option.elim_none, List.takeWhile_nil, List.dropWhile_nil, List.append_nil, hClock]
      rfl
  | some o =>
      have hSign : (!startsOffset (if o < 0 then '-' else '+')) = false := by
        split <;> decide
      have hZone := offset?_offsetText (hOffset o rfl)
      rw [offsetText_eq] at hZone
      simp only [Option.elim_some, offsetText_eq, List.takeWhile_cons, List.dropWhile_cons, hSign,
        Bool.false_eq_true, if_false, List.append_nil, hClock, List.isEmpty_cons, hZone]
      rfl

theorem toText_eq (s : Stamp) :
    s.toText = s.dayText ++ 'T' ::
      ((pair s.hour s.minute ++
        ':' :: (Text.ofNatPadded 2 s.second ++ fractionText s.microsecond)) ++
        s.offset.elim [] offsetText) := by
  simp [toText, clockText]

/-- A stamp that is written out is read back, but for the part of a second in its offset. -/
theorem Writable.ofText?_toText {s : Stamp} (h : s.Writable) :
    ofText? s.toText = some s.readBack := by
  have hValid := h.valid
  simp only [isValid, Bool.and_eq_true, decide_eq_true_eq] at hValid
  obtain ⟨⟨⟨⟨hDate, hHour⟩, hMinute⟩, hSecond⟩, hMicrosecond⟩ := hValid
  rw [toText_eq, ofText?, date?_dayText hDate]
  simp only
  rw [ofClock?_eq (by omega) (by omega) (by omega) hMicrosecond h.offset]
  exact Option.filter_some_pos h.valid

/-- A stamp is written out in digits and in a few other characters. -/
theorem not_mem_toText {c : Char} (hDigit : isAsciiDigit c = false)
    (hOther : c ∉ ['-', 'T', ':', '+', '.']) (s : Stamp) : c ∉ s.toText := by
  have hDigits := Text.not_mem_ofNatPadded hDigit
  simp only [List.mem_cons, List.not_mem_nil, or_false, not_or] at hOther
  obtain ⟨hDash, hTime, hColon, hPlus, hPoint⟩ := hOther
  have hFraction : ∀ us, c ∉ fractionText us := by
    intro us
    unfold fractionText
    split <;> simp [hDigits, hPoint]
  have hPair : ∀ a b, c ∉ pair a b := fun a b => by simp [pair, hDigits, hColon]
  have hOffset : ∀ o, c ∉ offsetText o := by
    intro o
    rw [offsetText_eq, sizeText]
    split <;> split <;> simp [hDigits, hFraction, hPair, hColon, hDash, hPlus]
  rw [toText_eq, dayText]
  cases s.offset <;> simp [hDigits, hFraction, hPair, hOffset, hDash, hTime, hColon]

/-- The letter for universal time is not used in writing. -/
theorem zulu_not_mem_toText (s : Stamp) : 'Z' ∉ s.toText :=
  not_mem_toText (by decide) (by decide) s

/-- There is no white space in a stamp. -/
theorem isBlank_eq_false_of_mem_toText {s : Stamp} : ∀ c ∈ s.toText, isBlank c = false :=
  Text.isBlank_eq_false_of_digits (fun _ hDigit hOther => not_mem_toText hDigit hOther s)
    (by decide)

theorem toText_ne_nil (s : Stamp) : s.toText ≠ [] := by
  rw [toText_eq]
  exact List.append_ne_nil_of_right_ne_nil _ (List.cons_ne_nil _ _)

end Stamp

end Composer
