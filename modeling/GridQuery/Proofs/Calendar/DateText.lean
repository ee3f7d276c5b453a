import GridQuery.Proofs.Calendar.Numerals
import GridQuery.Proofs.Calendar.Succession

/-!
The texts that stand for instants, told by their grammar: a date, a time of day and an offset from
UTC, or a date alone. The readers take these texts and no others, with the instants that the
calendar and the offset give them.
-/

namespace GridQuery.Calendar

/-- A date as it is written without a sign. -/
def dateChars (year month day : Nat) : List Char :=
  padded 4 year ++ '-' :: padded 2 month ++ '-' :: padded 2 day

/-- What a date-time says. -/
structure Stamp where
  year : Nat
  month : Nat
  day : Nat
  hour : Nat
  minute : Nat
  second : Nat
  nanos : Nat
  offset : Int

namespace Stamp

def date (stamp : Stamp) : Date :=
  ⟨stamp.year, stamp.month, stamp.day⟩

/-- Between date and time stands any character of one byte. -/
inductive Written (stamp : Stamp) : List Char → Prop
  | parts {separator : Char} {fraction zone : List Char} (years : stamp.year < 10000)
      (narrow : separator.toNat < 0x80) (fractionText : FractionText fraction stamp.nanos)
      (offsetText : OffsetText zone stamp.offset) :
      Written stamp (dateChars stamp.year stamp.month stamp.day ++
        separator :: padded 2 stamp.hour ++ ':' :: padded 2 stamp.minute ++
        ':' :: padded 2 stamp.second ++ fraction ++ zone)

/-- The instant at which clocks with the stamp's offset show its time, on the day of this number. -/
def onDay (stamp : Stamp) (days : Int) : Instant :=
  ⟨days * nanosPerDay + (stamp.hour * 3600 + stamp.minute * 60 + stamp.second - stamp.offset) *
    nanosPerSecond + stamp.nanos⟩

/-- The instant that a stamp stands for. A leap second comes at the end of a month in UTC, and
stands for the last nanosecond before it. -/
inductive At (stamp : Stamp) : Instant → Prop
  | clock {days : Int} (numbered : DayNumber stamp.date days) (hours : stamp.hour ≤ 23)
      (minutes : stamp.minute ≤ 59) (seconds : stamp.second ≤ 59) : At stamp (stamp.onDay days)
  | leapSecond {days year first : Int} {month : Nat} (numbered : DayNumber stamp.date days)
      (hours : stamp.hour ≤ 23) (minutes : stamp.minute ≤ 59) (leap : stamp.second = 60)
      (begins : DayNumber ⟨year, month, 1⟩ first)
      (ends : { stamp with nanos := 0 }.onDay days = ⟨first * nanosPerDay⟩) :
      At stamp ⟨first * nanosPerDay - 1⟩

/-- The instant that the reader makes of the parts. -/
def instant? (stamp : Stamp) : Option Instant :=
  if ¬ stamp.date.Exists then none
  else if stamp.second = 60 then leapInstant? stamp.date stamp.hour stamp.minute stamp.offset
  else
    let clock : Clock := ⟨stamp.hour, stamp.minute, stamp.second, stamp.nanos⟩
    if clock.Exists then some (.ofLocal stamp.date clock stamp.offset) else none

variable {stamp : Stamp} {text : List Char} {instant : Instant}

theorem exists_written (read : dateTime? text = some instant) :
    ∃ stamp : Stamp, stamp.Written text ∧ stamp.instant? = some instant := by
  unfold dateTime? at read
  split at read
  next y₁ y₂ y₃ y₄ m₁ m₂ d₁ d₂ separator h₁ h₂ n₁ n₂ s₁ s₂ rest =>
    simp only [Option.bind_eq_bind, Option.bind_eq_some_iff] at read
    obtain ⟨year, yearRead, month, monthRead, day, dayRead, hour, hourRead, minute, minuteRead,
      second, secondRead, ⟨nanos, zone⟩, fractionRead, offset, offsetRead, read⟩ := read
    obtain ⟨years, yearText⟩ := fourDigits?_eq_some_iff.mp yearRead
    obtain ⟨_, monthText⟩ := twoDigits?_eq_some_iff.mp monthRead
    obtain ⟨_, dayText⟩ := twoDigits?_eq_some_iff.mp dayRead
    obtain ⟨_, hourText⟩ := twoDigits?_eq_some_iff.mp hourRead
    obtain ⟨_, minuteText⟩ := twoDigits?_eq_some_iff.mp minuteRead
    obtain ⟨_, secondText⟩ := twoDigits?_eq_some_iff.mp secondRead
    obtain ⟨fraction, fractionText, tail⟩ := exists_fractionText fractionRead
    have offsetText := offset?_eq_some_iff.mp offsetRead
    let stamp : Stamp := ⟨year, month, day, hour, minute, second, nanos, offset⟩
    split at read
    next => cases read
    next passes =>
      obtain ⟨real, narrow⟩ := not_or.mp passes
      refine ⟨stamp, ?_, (if_neg real).trans read⟩
      have written : stamp.Written _ := .parts years (Nat.not_le.mp narrow) fractionText offsetText
      simp only [stamp, dateChars, yearText, monthText, dayText, hourText, minuteText,
        secondText, List.cons_append, List.nil_append, ← tail] at written
      exact written
  next => cases read

theorem dateTime?_of_written (written : stamp.Written text) (months : stamp.month < 100)
    (days : stamp.day < 100) (hours : stamp.hour < 100) (minutes : stamp.minute < 100)
    (seconds : stamp.second < 100) : dateTime? text = stamp.instant? := by
  obtain ⟨years, narrow, fractionText, offsetText⟩ := written
  obtain ⟨y₁, y₂, y₃, y₄, yearText, yearRead⟩ := padded_four years
  obtain ⟨m₁, m₂, monthText, monthRead⟩ := padded_two months
  obtain ⟨d₁, d₂, dayText, dayRead⟩ := padded_two days
  obtain ⟨h₁, h₂, hourText, hourRead⟩ := padded_two hours
  obtain ⟨n₁, n₂, minuteText, minuteRead⟩ := padded_two minutes
  obtain ⟨s₁, s₂, secondText, secondRead⟩ := padded_two seconds
  have fractionRead := fraction?_of_fractionText fractionText offsetText.afterFraction
  have offsetRead := offset?_eq_some_iff.mpr offsetText
  simp only [dateChars, yearText, monthText, dayText, hourText, minuteText, secondText,
    List.cons_append, List.nil_append, dateTime?, yearRead, monthRead, dayRead, hourRead,
    minuteRead, secondRead, fractionRead, offsetRead, Option.bind_eq_bind, Option.bind_some]
  unfold instant? date
  by_cases real : Date.Exists ⟨stamp.year, stamp.month, stamp.day⟩
  · rw [if_neg (not_or.mpr ⟨not_not_intro real, Nat.not_le.mpr narrow⟩),
      if_neg (not_not_intro real)]
  · rw [if_pos (.inl real), if_pos real]
    rfl

theorem ofLocal_eq_onDay (stamp : Stamp) :
    Instant.ofLocal stamp.date ⟨stamp.hour, stamp.minute, stamp.second, stamp.nanos⟩
      stamp.offset = stamp.onDay stamp.date.toDays := by
  unfold Instant.ofLocal onDay Clock.sinceMidnight nanosPerDay secondsPerDay nanosPerSecond
  push_cast
  congr 1
  ring

end Stamp

theorem Instant.endsMonth_iff {instant : Instant} : instant.endsMonth = true ↔
    ∃ year month first, DayNumber ⟨year, month, 1⟩ first ∧
      instant.nanoseconds + 1 = first * nanosPerDay := by
  simp only [endsMonth, Bool.and_eq_true, decide_eq_true_eq]
  constructor
  · intro ⟨whole, firstDay⟩
    let first := Date.ofDays ((instant.nanoseconds + 1) / nanosPerDay)
    have begins : first = ⟨first.year, first.month, 1⟩ := by rw [← firstDay]
    exact ⟨first.year, first.month, _, begins ▸ dayNumber_ofDays _,
      (Int.ediv_mul_cancel (Int.dvd_of_emod_eq_zero whole)).symm⟩
  · intro ⟨year, month, first, numbered, whole⟩
    rw [whole, Int.mul_emod_left, Int.mul_ediv_cancel _ (by decide), numbered.ofDays_eq]
    exact ⟨rfl, rfl⟩

namespace Stamp

variable {stamp : Stamp} {text : List Char} {instant : Instant}

theorem onDay_leap (leap : stamp.second = 60) (days : Int) :
    ({ stamp with second := 59, nanos := 999999999 }.onDay days).nanoseconds + 1 =
      ({ stamp with nanos := 0 }.onDay days).nanoseconds := by
  simp only [onDay, leap, nanosPerSecond]
  push_cast
  ring

/-- The offset is less than a day, so no month ends between the end of the calendar and the end of
its last day elsewhere. -/
theorem first_le_of_ends {days first : Int} (years : stamp.year < 10000)
    (zone : -86400 < stamp.offset) (numbered : DayNumber stamp.date days)
    (hours : stamp.hour ≤ 23) (minutes : stamp.minute ≤ 59) (leap : stamp.second = 60)
    (ends : { stamp with nanos := 0 }.onDay days = ⟨first * nanosPerDay⟩) :
    first ≤ daysBeforeYear 10000 - epochDays := by
  obtain ⟨real, rfl⟩ := dayNumber_iff.mp numbered
  have within := real.toDays_lt
  have order : daysBeforeYear (stamp.date.year + 1) ≤ daysBeforeYear 10000 :=
    daysBeforeYear_mono (by simp only [date]; omega)
  have time := congrArg Instant.nanoseconds ends
  simp only [onDay, leap, nanosPerDay, secondsPerDay, nanosPerSecond] at time
  omega

/-- A leap second is read as the last nanosecond before it. -/
theorem leapInstant?_eq_some_iff (years : stamp.year < 10000) (zone : -86400 < stamp.offset)
    (real : stamp.date.Exists) (leap : stamp.second = 60) :
    leapInstant? stamp.date stamp.hour stamp.minute stamp.offset = some instant ↔
      stamp.At instant := by
  have last : Instant.ofLocal stamp.date ⟨stamp.hour, stamp.minute, 59, 999999999⟩
      stamp.offset = { stamp with second := 59, nanos := 999999999 }.onDay stamp.date.toDays :=
    ofLocal_eq_onDay { stamp with second := 59, nanos := 999999999 }
  have following := onDay_leap leap stamp.date.toDays
  unfold leapInstant?
  simp only [last, Option.ite_none_right_eq_some, Option.some.injEq]
  constructor
  · intro ⟨⟨⟨hours, minutes, _⟩, endsMonth, _⟩, same⟩
    obtain ⟨year, month, first, begins, whole⟩ := Instant.endsMonth_iff.mp endsMonth
    have ends : { stamp with nanos := 0 }.onDay stamp.date.toDays = ⟨first * nanosPerDay⟩ :=
      congrArg Instant.mk (following.symm.trans whole)
    have read : instant = ⟨first * nanosPerDay - 1⟩ := by
      rw [← same, ← whole, Int.add_sub_cancel]
    rw [read]
    exact .leapSecond (dayNumber_iff.mpr ⟨real, rfl⟩) hours minutes leap begins ends
  · intro stands
    cases stands with
    | clock _ _ _ seconds => omega
    | leapSecond numbered hours minutes _ begins ends =>
      have early := first_le_of_ends years zone numbered hours minutes leap ends
      obtain ⟨_, rfl⟩ := dayNumber_iff.mp numbered
      have whole := following.trans (congrArg Instant.nanoseconds ends)
      refine ⟨⟨⟨hours, minutes, Nat.le_refl 59⟩, Instant.endsMonth_iff.mpr ⟨_, _, _, begins, whole⟩,
        ?_⟩, congrArg Instant.mk (eq_sub_of_add_eq whole)⟩
      rw [Bool.not_eq_true', Instant.afterCalendar, decide_eq_false_iff_not, Int.not_le,
        Instant.startOf_firstDay]
      simp only [nanosPerDay, secondsPerDay, nanosPerSecond] at whole ⊢
      omega

/-- The parts of a date-time are read as the instant that they stand for. -/
theorem instant?_eq_some_iff (years : stamp.year < 10000) (zone : -86400 < stamp.offset) :
    stamp.instant? = some instant ↔ stamp.At instant := by
  by_cases real : stamp.date.Exists
  · rw [instant?, if_neg (not_not_intro real)]
    by_cases leap : stamp.second = 60
    · rw [if_pos leap]
      exact leapInstant?_eq_some_iff years zone real leap
    · rw [if_neg leap]
      simp only [Option.ite_none_right_eq_some, Option.some.injEq, ofLocal_eq_onDay]
      constructor
      · intro ⟨⟨hours, minutes, seconds⟩, same⟩
        rw [← same]
        exact .clock (dayNumber_iff.mpr ⟨real, rfl⟩) hours minutes seconds
      · intro stands
        cases stands with
        | clock numbered hours minutes seconds =>
          obtain ⟨_, rfl⟩ := dayNumber_iff.mp numbered
          exact ⟨⟨hours, minutes, seconds⟩, rfl⟩
        | leapSecond _ _ _ leap' => exact absurd leap' leap
  · rw [instant?, if_pos real]
    refine iff_of_false nofun fun stands => real ?_
    cases stands with
    | clock numbered => exact (dayNumber_iff.mp numbered).1
    | leapSecond numbered => exact (dayNumber_iff.mp numbered).1

end Stamp

/-- The text is a date-time at the instant. -/
def DateTimeAt (text : List Char) (instant : Instant) : Prop :=
  ∃ stamp : Stamp, stamp.Written text ∧ stamp.At instant

theorem OffsetText.bounds {zone : List Char} {offset : Int} (written : OffsetText zone offset) :
    -86400 < offset ∧ offset < 86400 := by
  cases written with
  | utc | utc' => decide
  | ahead | behind => omega

theorem Stamp.At.bounds {stamp : Stamp} {instant : Instant} (stands : stamp.At instant) :
    stamp.month < 100 ∧ stamp.day < 100 ∧ stamp.hour < 100 ∧ stamp.minute < 100 ∧
      stamp.second < 100 := by
  have dated {days : Int} (numbered : DayNumber stamp.date days) :
      stamp.month ≤ 12 ∧ stamp.day ≤ 31 :=
    have real := (dayNumber_iff.mp numbered).1
    ⟨real.month_le, real.day_le⟩
  cases stands with
  | clock numbered hours minutes seconds =>
    have bounds := dated numbered
    omega
  | leapSecond numbered hours minutes leap =>
    have bounds := dated numbered
    omega

/-- Exactly the date-times are read, each as the instant that it stands for. -/
theorem dateTime?_eq_some_iff {text : List Char} {instant : Instant} :
    dateTime? text = some instant ↔ DateTimeAt text instant := by
  constructor
  · intro read
    obtain ⟨stamp, written, made⟩ := Stamp.exists_written read
    refine ⟨stamp, written, ?_⟩
    cases written with
    | parts years _ _ offsetText =>
      exact (Stamp.instant?_eq_some_iff years offsetText.bounds.1).mp made
  · intro ⟨stamp, written, stands⟩
    obtain ⟨months, days, hours, minutes, seconds⟩ := stands.bounds
    rw [Stamp.dateTime?_of_written written months days hours minutes seconds]
    cases written with
    | parts years _ _ offsetText =>
      exact (Stamp.instant?_eq_some_iff years offsetText.bounds.1).mpr stands

/-- A date alone, whose year may have a sign. -/
inductive DateText : List Char → Date → Prop
  | unsigned {year month day : Nat} (years : year < 10000) :
      DateText (dateChars year month day) ⟨year, month, day⟩
  | positive {year month day : Nat} (years : year < 10000) :
      DateText ('+' :: dateChars year month day) ⟨year, month, day⟩
  | negative {year month day : Nat} (years : year < 10000) :
      DateText ('-' :: dateChars year month day) ⟨-year, month, day⟩

/-- The text is a date that begins at the instant in UTC. -/
def DateAt (text : List Char) (instant : Instant) : Prop :=
  ∃ date days, DateText text date ∧ DayNumber date days ∧ instant = ⟨days * nanosPerDay⟩

section

variable {text : List Char} {instant : Instant} {date : Date}

theorem unsignedDate?_eq_some_iff {negative : Bool} :
    unsignedDate? negative text = some instant ↔ ∃ year month day : Nat, year < 10000 ∧
      text = dateChars year month day ∧ ∃ days,
        DayNumber ⟨if negative then -(year : Int) else year, month, day⟩ days ∧
          instant = ⟨days * nanosPerDay⟩ := by
  constructor
  · intro read
    unfold unsignedDate? at read
    split at read
    next y₁ y₂ y₃ y₄ m₁ m₂ d₁ d₂ =>
      simp only [Option.bind_eq_bind, Option.bind_eq_some_iff] at read
      obtain ⟨year, yearRead, month, monthRead, day, dayRead, read⟩ := read
      obtain ⟨years, yearText⟩ := fourDigits?_eq_some_iff.mp yearRead
      obtain ⟨_, monthText⟩ := twoDigits?_eq_some_iff.mp monthRead
      obtain ⟨_, dayText⟩ := twoDigits?_eq_some_iff.mp dayRead
      obtain ⟨real, dated⟩ := Option.ite_none_right_eq_some.mp read
      refine ⟨year, month, day, years, ?_, _, dayNumber_iff.mpr ⟨real, rfl⟩, ?_⟩
      · rw [dateChars, yearText, monthText, dayText]
        rfl
      · exact (Option.some.inj dated).symm
    next => cases read
  · intro ⟨year, month, day, years, written, days, numbered, starts⟩
    obtain ⟨real, rfl⟩ := dayNumber_iff.mp numbered
    have months : month ≤ 12 := real.month_le
    have days : day ≤ 31 := real.day_le
    obtain ⟨y₁, y₂, y₃, y₄, yearText, yearRead⟩ := padded_four years
    obtain ⟨m₁, m₂, monthText, monthRead⟩ := padded_two (show month < 100 by omega)
    obtain ⟨d₁, d₂, dayText, dayRead⟩ := padded_two (show day < 100 by omega)
    rw [written, dateChars, yearText, monthText, dayText]
    simp only [List.cons_append, List.nil_append, unsignedDate?, yearRead, monthRead, dayRead,
      Option.bind_eq_bind, Option.bind_some]
    rw [if_pos real, starts]
    rfl

theorem dateChars_begins {year : Nat} (years : year < 10000) (month day : Nat) :
    ∃ c rest, dateChars year month day = c :: rest ∧ c.isDigit = true := by
  obtain ⟨a, b, c, d, text, _⟩ := padded_four years
  have inside : a ∈ padded 4 year := by
    rw [text]
    exact List.mem_cons_self
  refine ⟨a, [b, c, d] ++ '-' :: padded 2 month ++ '-' :: padded 2 day, ?_,
    isDigit_of_mem_padded inside⟩
  rw [dateChars, text]
  rfl

/-- Exactly the dates are read, each as its midnight in UTC. -/
theorem plainDate?_eq_some_iff : plainDate? text = some instant ↔ DateAt text instant := by
  constructor
  · intro read
    unfold plainDate? at read
    split at read
    next rest =>
      obtain ⟨year, month, day, years, rfl, days, numbered, starts⟩ :=
        unsignedDate?_eq_some_iff.mp read
      exact ⟨_, days, .positive years, numbered, starts⟩
    next rest =>
      obtain ⟨year, month, day, years, rfl, days, numbered, starts⟩ :=
        unsignedDate?_eq_some_iff.mp read
      exact ⟨_, days, .negative years, numbered, starts⟩
    next =>
      obtain ⟨year, month, day, years, rfl, days, numbered, starts⟩ :=
        unsignedDate?_eq_some_iff.mp read
      exact ⟨_, days, .unsigned years, numbered, starts⟩
  · intro ⟨date, days, written, numbered, starts⟩
    cases written with
    | @unsigned year month day years =>
      obtain ⟨c, rest, first, isDigit⟩ := dateChars_begins years month day
      unfold plainDate?
      split
      next same =>
        rw [(List.cons.inj (first.symm.trans same)).1] at isDigit
        cases isDigit
      next same =>
        rw [(List.cons.inj (first.symm.trans same)).1] at isDigit
        cases isDigit
      next => exact unsignedDate?_eq_some_iff.mpr ⟨_, _, _, years, rfl, days, numbered, starts⟩
    | positive years =>
      exact unsignedDate?_eq_some_iff.mpr ⟨_, _, _, years, rfl, days, numbered, starts⟩
    | negative years =>
      exact unsignedDate?_eq_some_iff.mpr ⟨_, _, _, years, rfl, days, numbered, starts⟩

theorem length_dateChars {year month day : Nat} (years : year < 10000) (months : month < 100)
    (days : day < 100) : (dateChars year month day).length = 10 := by
  obtain ⟨_, _, _, _, yearText, _⟩ := padded_four years
  obtain ⟨_, _, monthText, _⟩ := padded_two months
  obtain ⟨_, _, dayText, _⟩ := padded_two days
  rw [dateChars, yearText, monthText, dayText]
  rfl

theorem dateTime?_of_length (short : text.length < 19) : dateTime? text = none := by
  unfold dateTime?
  split
  next =>
    simp only [List.length_cons] at short
    omega
  next => rfl

/-- A date alone is too short for a date-time. -/
theorem dateTime?_of_dateAt (dated : DateAt text instant) : dateTime? text = none := by
  obtain ⟨date, days, written, numbered, _⟩ := dated
  obtain ⟨real, _⟩ := dayNumber_iff.mp numbered
  have months : date.month < 100 := Nat.lt_of_le_of_lt real.month_le (by decide)
  have days : date.day < 100 := Nat.lt_of_le_of_lt real.day_le (by decide)
  apply dateTime?_of_length
  cases written with
  | unsigned years =>
    rw [length_dateChars years months days]
    decide
  | positive years | negative years =>
    rw [List.length_cons, length_dateChars years months days]
    decide

end

end GridQuery.Calendar
