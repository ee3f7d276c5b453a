import GridQuery.Calendar.Instant
import GridQuery.Proofs.Calendar.Civil

/-!
The canonical text of an instant of the years 0 to 9999 is read back, as the instant cut to
milliseconds, and that instant has the same text. The text of an earlier instant is not read at all.
-/

namespace GridQuery.Calendar

section Digits

variable {n : Nat} {c a b d : Char}

theorem digit?_digitChar (small : n < 10) : digit? n.digitChar = some n := by
  rw [digit?, Nat.isDigit_digitChar, if_pos (decide_eq_true small),
    Nat.toNat_digitChar_of_lt_ten small, Nat.add_sub_cancel_left]

theorem digit?_lt (read : digit? c = some n) : n < 10 := by
  rw [digit?] at read
  split at read
  next digit =>
    cases read
    have last : c.toNat ≤ 0x39 := (Char.isDigit_iff_toNat.mp digit).2
    omega
  next => cases read

theorem twoDigits?_lt (read : twoDigits? a b = some n) : n < 100 := by
  simp only [twoDigits?, Option.bind_eq_bind, Option.bind_eq_some_iff] at read
  obtain ⟨tens, first, ones, second, read⟩ := read
  cases read
  have tensSmall := digit?_lt first
  have onesSmall := digit?_lt second
  omega

theorem fourDigits?_lt (read : fourDigits? a b c d = some n) : n < 10000 := by
  simp only [fourDigits?, Option.bind_eq_bind, Option.bind_eq_some_iff] at read
  obtain ⟨hundreds, first, rest, second, read⟩ := read
  cases read
  have hundredsSmall := twoDigits?_lt first
  have restSmall := twoDigits?_lt second
  omega

theorem padded_one (small : n < 10) : padded 1 n = [n.digitChar] := by
  rw [padded, Nat.toDigits_of_lt_base small]
  rfl

/-- The last digit of a padded number follows those of its tenth. -/
theorem padded_succ (width : Nat) (n : Nat) :
    padded (width + 1 + 1) n = padded (width + 1) (n / 10) ++ [(n % 10).digitChar] := by
  simp only [padded]
  rcases Nat.lt_or_ge n 10 with small | large
  · rw [Nat.toDigits_of_lt_base small, Nat.div_eq_of_lt small, Nat.mod_eq_of_lt small,
      Nat.toDigits_of_lt_base (by decide)]
    simp only [List.length_singleton, Nat.add_sub_cancel, List.replicate_succ']
    rfl
  · rw [Nat.toDigits_of_base_le (by decide) large, List.length_append, List.length_singleton,
      Nat.add_sub_add_right, List.append_assoc]

theorem le_length_padded (width n : Nat) : width ≤ (padded width n).length := by
  simp only [padded, List.length_append, List.length_replicate]
  omega

theorem padded_two (short : n < 100) :
    ∃ a b, padded 2 n = [a, b] ∧ twoDigits? a b = some n := by
  refine ⟨(n / 10).digitChar, (n % 10).digitChar, ?_, ?_⟩
  · rw [padded_succ 0, padded_one (by omega)]
    rfl
  · rw [twoDigits?, digit?_digitChar (by omega), digit?_digitChar (by omega)]
    simp only [Option.bind_eq_bind, Option.bind_some, Option.pure_def, Nat.div_add_mod']

theorem padded_four (short : n < 10000) :
    ∃ a b c d, padded 4 n = [a, b, c, d] ∧ fourDigits? a b c d = some n := by
  obtain ⟨a, b, first, read⟩ := padded_two (show n / 100 < 100 by omega)
  obtain ⟨c, d, second, read'⟩ := padded_two (show n % 100 < 100 by omega)
  refine ⟨a, b, c, d, ?_, ?_⟩
  · rw [padded_succ 0, padded_one (by omega)] at second
    rw [padded_succ 2, padded_succ 1, Nat.div_div_eq_div_mul, first]
    rw [show n % 100 / 10 = n / 10 % 10 by omega, show n % 100 % 10 = n % 10 by omega] at second
    obtain ⟨rfl, rfl⟩ : (n / 10 % 10).digitChar = c ∧ (n % 10).digitChar = d := by
      simpa using second
    rfl
  · rw [fourDigits?, read, read']
    simp only [Option.bind_eq_bind, Option.bind_some, Option.pure_def, Nat.div_add_mod']

theorem isDigit_of_mem_padded {width : Nat} (member : c ∈ padded width n) : c.isDigit = true := by
  rcases List.mem_append.mp member with zero | digit
  · rw [List.eq_of_mem_replicate zero]
    decide
  · exact Nat.isDigit_of_mem_toDigits (by decide : 0 < 10) (by decide) digit

theorem fractionNanos_padded (short : n < 1000) : fractionNanos (padded 3 n) = n * 1000000 := by
  have value : ∀ k < 10, k.digitChar.toNat - 0x30 = k := fun k small => by
    rw [Nat.toNat_digitChar_of_lt_ten small, Nat.add_sub_cancel_left]
  rw [padded_succ 1, padded_succ 0, padded_one (by omega)]
  simp [fractionNanos, List.replicate, value (n / 10 / 10) (by omega),
    value (n / 10 % 10) (by omega), value (n % 10) (by omega)]
  omega

/-- Three digits after the point are thousandths. -/
theorem fraction?_padded (short : n < 1000) :
    fraction? ('.' :: (padded 3 n ++ ['Z'])) = some (n * 1000000, ['Z']) := by
  have digits : ∀ c ∈ padded 3 n, c.isDigit = true := fun _ => isDigit_of_mem_padded
  have given : padded 3 n ≠ [] := by
    rw [padded_succ 1]
    exact List.concat_ne_nil _ _
  have stop : ('Z' : Char).isDigit = false := by decide
  rw [fraction?, List.takeWhile_append_of_pos digits, List.dropWhile_append_of_pos digits]
  simp [stop, given, fractionNanos_padded short]

end Digits

theorem dateTime?_sign (rest : List Char) : dateTime? ('-' :: rest) = none := by
  unfold dateTime?
  split
  next found =>
    obtain ⟨rfl, _⟩ := List.cons.inj found
    rfl
  next => rfl

theorem unsignedDate?_of_length {negative : Bool} {text : List Char} (long : 10 < text.length) :
    unsignedDate? negative text = none := by
  unfold unsignedDate?
  split
  next => exact absurd long (Nat.lt_irrefl 10)
  next => rfl

namespace Instant

variable {instant : Instant}

def date (instant : Instant) : Date :=
  Date.ofDays (instant.nanoseconds / nanosPerDay)

/-- Milliseconds from midnight. -/
def millisOfDay (instant : Instant) : Nat :=
  (instant.nanoseconds % nanosPerDay / nanosPerMilli).toNat

/-- The time of day to the millisecond. -/
def clock (instant : Instant) : Clock :=
  let seconds := instant.millisOfDay / 1000
  ⟨seconds / 3600, seconds / 60 % 60, seconds % 60, instant.millisOfDay % 1000 * 1000000⟩

/-- What an instant's text keeps of it. -/
def cut (instant : Instant) : Instant :=
  .ofMillis (instant.nanoseconds / nanosPerMilli)

/-- The text of an earlier instant begins with a sign. -/
def FromYearZero (instant : Instant) : Prop :=
  (startOf ⟨0, 1, 1⟩).nanoseconds ≤ instant.nanoseconds

instance (instant : Instant) : Decidable instant.FromYearZero :=
  inferInstanceAs (Decidable (_ ≤ _))

theorem startOf_firstDay (year : Int) :
    (startOf ⟨year, 1, 1⟩).nanoseconds = (daysBeforeYear year - epochDays) * nanosPerDay := by
  simp [startOf, Date.toDays, daysBeforeMonth]

theorem millisOfDay_lt (instant : Instant) : instant.millisOfDay < 86400000 := by
  simp only [millisOfDay, nanosPerDay, secondsPerDay, nanosPerSecond, nanosPerMilli]
  omega

theorem clock_exists (instant : Instant) : instant.clock.Exists := by
  have short := instant.millisOfDay_lt
  simp only [clock, Clock.Exists]
  omega

/-- Date and time of day give the instant back, to the millisecond. -/
theorem ofLocal_clock (instant : Instant) :
    ofLocal instant.date instant.clock 0 = instant.cut := by
  rw [ofLocal, date, (ofDays_spec _).2.2, cut, ofMillis]
  simp only [Clock.sinceMidnight, clock, millisOfDay, nanosPerDay, secondsPerDay, nanosPerSecond,
    nanosPerMilli, mk.injEq]
  omega

theorem cut_chars (instant : Instant) : instant.cut.chars = instant.chars := by
  have days : instant.cut.nanoseconds / nanosPerDay = instant.nanoseconds / nanosPerDay := by
    simp only [cut, ofMillis, nanosPerDay, secondsPerDay, nanosPerSecond, nanosPerMilli]
    omega
  have millis : instant.cut.nanoseconds % nanosPerDay / nanosPerMilli =
      instant.nanoseconds % nanosPerDay / nanosPerMilli := by
    simp only [cut, ofMillis, nanosPerDay, secondsPerDay, nanosPerSecond, nanosPerMilli]
    omega
  rw [chars, chars, days, millis]

/-- The text is that of the date and the time of day. -/
theorem chars_eq (instant : Instant) : instant.chars =
    yearChars instant.date.year ++ '-' :: padded 2 instant.date.month ++
      '-' :: padded 2 instant.date.day ++ 'T' :: padded 2 instant.clock.hour ++
      ':' :: padded 2 instant.clock.minute ++ ':' :: padded 2 instant.clock.second ++
      '.' :: padded 3 (instant.millisOfDay % 1000) ++ ['Z'] :=
  rfl

theorem le_year_iff {year : Int} :
    year ≤ instant.date.year ↔ (startOf ⟨year, 1, 1⟩).nanoseconds ≤ instant.nanoseconds := by
  have positive : 0 < nanosPerDay := by decide
  rw [date, (ofDays_spec _).1, le_yearOfDays_iff, startOf_firstDay,
    ← Int.le_ediv_iff_mul_le positive]
  omega

theorem year_nonneg_iff : 0 ≤ instant.date.year ↔ instant.FromYearZero :=
  le_year_iff

theorem year_lt (before : instant.afterCalendar = false) : instant.date.year < 10000 := by
  rw [← Int.not_le, le_year_iff]
  exact of_decide_eq_false before

/-- The canonical text is read as a date-time. -/
theorem dateTime?_chars (begun : instant.FromYearZero)
    (before : instant.afterCalendar = false) : dateTime? instant.chars = some instant.cut := by
  have real : instant.date.Exists := (ofDays_spec _).2.1
  have year := year_nonneg_iff.mpr begun
  have year' := year_lt before
  obtain ⟨hours, minutes, seconds⟩ := instant.clock_exists
  obtain ⟨y₁, y₂, y₃, y₄, yearText, yearRead⟩ :=
    padded_four (show instant.date.year.natAbs < 10000 by omega)
  obtain ⟨m₁, m₂, monthText, monthRead⟩ :=
    padded_two (Nat.lt_of_le_of_lt real.month_le (by decide : 12 < 100))
  obtain ⟨d₁, d₂, dayText, dayRead⟩ :=
    padded_two (Nat.lt_of_le_of_lt real.day_le (by decide : 31 < 100))
  obtain ⟨h₁, h₂, hourText, hourRead⟩ :=
    padded_two (Nat.lt_of_le_of_lt hours (by decide : 23 < 100))
  obtain ⟨n₁, n₂, minuteText, minuteRead⟩ :=
    padded_two (Nat.lt_of_le_of_lt minutes (by decide : 59 < 100))
  obtain ⟨s₁, s₂, secondText, secondRead⟩ :=
    padded_two (Nat.lt_of_le_of_lt seconds (by decide : 59 < 100))
  have fraction := fraction?_padded (Nat.mod_lt instant.millisOfDay (by decide : 1000 > 0))
  have narrow : ¬ 'T'.toNat ≥ 0x80 := by decide
  have common : instant.clock.second ≠ 60 := by omega
  rw [chars_eq, yearChars, if_neg (Int.not_lt.mpr year), yearText, monthText, dayText, hourText,
    minuteText, secondText]
  simp only [List.nil_append, List.cons_append, dateTime?, yearRead, monthRead, dayRead, hourRead,
    minuteRead, secondRead, fraction, offset?, Option.bind_eq_bind, Option.bind_some,
    Int.natAbs_of_nonneg year]
  rw [if_neg (not_or.mpr ⟨fun unreal => unreal real, narrow⟩), if_neg common]
  exact (if_pos instant.clock_exists).trans (congrArg some instant.ofLocal_clock)

/-- Before year 0 the text begins with a sign, as no date-time does, and is longer than a date. -/
theorem chars_unreadable (early : ¬ instant.FromYearZero) :
    dateTime? instant.chars = none ∧ plainDate? instant.chars = none := by
  have year : instant.date.year < 0 := Int.not_le.mp (mt year_nonneg_iff.mp early)
  rw [chars_eq, yearChars, if_pos year]
  simp only [List.cons_append, List.nil_append, plainDate?]
  refine ⟨dateTime?_sign _, unsignedDate?_of_length ?_⟩
  have years := le_length_padded 4 instant.date.year.natAbs
  have months := le_length_padded 2 instant.date.month
  have days := le_length_padded 2 instant.date.day
  have hours := le_length_padded 2 instant.clock.hour
  simp only [List.length_append, List.length_cons]
  omega

theorem cut_not_afterCalendar (before : instant.afterCalendar = false) :
    instant.cut.afterCalendar = false := by
  have within := Int.not_le.mp (of_decide_eq_false before)
  refine decide_eq_false (Int.not_le.mpr (Int.lt_of_le_of_lt ?_ within))
  exact Int.ediv_mul_le _ (by decide)

/-- A plain date has a year of four digits. -/
theorem unsignedDate?_before {negative : Bool} {text : List Char}
    (read : unsignedDate? negative text = some instant) : instant.afterCalendar = false := by
  unfold unsignedDate? at read
  split at read
  next y₁ y₂ y₃ y₄ m₁ m₂ d₁ d₂ =>
    simp only [Option.bind_eq_bind, Option.bind_eq_some_iff] at read
    obtain ⟨year, yearRead, month, _, day, _, read⟩ := read
    have short := fourDigits?_lt yearRead
    obtain ⟨real, dated⟩ := Option.ite_none_right_eq_some.mp read
    cases dated
    have within := real.toDays_lt
    have order : daysBeforeYear ((if negative then -(year : Int) else year) + 1) ≤
        daysBeforeYear 10000 := daysBeforeYear_mono (by split <;> omega)
    refine decide_eq_false (Int.not_le.mpr ?_)
    rw [startOf_firstDay]
    exact Int.mul_lt_mul_of_pos_right
      (Int.lt_of_lt_of_le within (Int.sub_le_sub_right order epochDays)) (by decide)
  next => cases read

theorem plainDate?_before {text : List Char} (read : plainDate? text = some instant) :
    instant.afterCalendar = false := by
  unfold plainDate? at read
  split at read
  next => exact unsignedDate?_before read
  next => exact unsignedDate?_before read
  next => exact unsignedDate?_before read

end Instant

end GridQuery.Calendar
