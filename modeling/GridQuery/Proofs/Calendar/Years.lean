import GridQuery.Proofs.Calendar.DateText

/-!
The years of instants in UTC. No text stands for an instant before the calendar, and only a
date-time with an offset can fall after it.
-/

namespace GridQuery.Calendar

/-- In UTC the instant falls into one of the years from the first to the last. -/
def Instant.InYears (first last : Int) (instant : Instant) : Prop :=
  ∃ date, DayNumber date (instant.nanoseconds / nanosPerDay) ∧ first ≤ date.year ∧
    date.year ≤ last

def Instant.AfterYear (last : Int) (instant : Instant) : Prop :=
  ∃ date, DayNumber date (instant.nanoseconds / nanosPerDay) ∧ last < date.year

namespace Instant

variable {instant : Instant} {first last : Int}

theorem inYears_iff :
    instant.InYears first last ↔ first ≤ instant.date.year ∧ instant.date.year ≤ last := by
  constructor
  · rintro ⟨date, numbered, years⟩
    rwa [Instant.date, numbered.ofDays_eq]
  · intro years
    exact ⟨instant.date, dayNumber_ofDays _, years⟩

theorem afterYear_iff : instant.AfterYear last ↔ last < instant.date.year := by
  constructor
  · rintro ⟨date, numbered, later⟩
    rwa [Instant.date, numbered.ofDays_eq]
  · intro later
    exact ⟨instant.date, dayNumber_ofDays _, later⟩

theorem afterCalendar_iff : instant.afterCalendar = true ↔ instant.AfterYear 9999 := by
  rw [afterYear_iff, afterCalendar, decide_eq_true_eq, ← le_year_iff]
  omega

theorem beforeCalendar_iff : instant.beforeCalendar = true ↔ instant.date.year < -9999 := by
  rw [beforeCalendar, decide_eq_true_eq, ← Int.not_le, ← le_year_iff, Int.not_le]

theorem inCalendar_iff : instant.InYears (-9999) 9999 ↔
    ¬ (instant.afterCalendar || instant.beforeCalendar) = true := by
  rw [Bool.or_eq_true, afterCalendar_iff, afterYear_iff, beforeCalendar_iff, inYears_iff]
  omega

theorem fromYearZero_of_inYears (years : instant.InYears 0 last) : instant.FromYearZero :=
  year_nonneg_iff.mp (inYears_iff.mp years).1

theorem afterCalendar_of_inYears (years : instant.InYears first 9999) :
    instant.afterCalendar = false := by
  rw [Bool.eq_false_iff, Ne, afterCalendar_iff, afterYear_iff]
  exact Int.not_lt.mpr (inYears_iff.mp years).2

end Instant

/-- An offset takes no date-time back by more than a day. -/
theorem Stamp.lt_onDay {stamp : Stamp} {days : Int} (zone : stamp.offset < 86400)
    (numbered : DayNumber stamp.date days) :
    (Instant.startOf ⟨-9999, 1, 1⟩).nanoseconds < (stamp.onDay days).nanoseconds := by
  obtain ⟨real, rfl⟩ := dayNumber_iff.mp numbered
  have day : 1 ≤ stamp.date.day := real.1
  have begun : daysBeforeYear 0 ≤ daysBeforeYear stamp.date.year :=
    daysBeforeYear_mono (Int.natCast_nonneg stamp.year)
  have early : daysBeforeYear (-9999) + 2 ≤ daysBeforeYear 0 := by decide
  rw [Instant.startOf_firstDay]
  simp only [onDay, Date.toDays, nanosPerDay, secondsPerDay, nanosPerSecond]
  omega

theorem DateTimeAt.le_year {text : List Char} {instant : Instant}
    (written : DateTimeAt text instant) : -9999 ≤ instant.date.year := by
  obtain ⟨stamp, ⟨_, _, _, offsetText⟩, stands⟩ := written
  have zone := offsetText.bounds.2
  rw [Instant.le_year_iff]
  cases stands with
  | clock numbered => exact Int.le_of_lt (Stamp.lt_onDay zone numbered)
  | @leapSecond days _ first _ numbered _ _ _ _ ends =>
    have order : _ < ({ stamp with nanos := 0 }.onDay days).nanoseconds :=
      Stamp.lt_onDay zone numbered
    rw [ends] at order
    exact Int.le_sub_one_of_lt order

theorem DateAt.inCalendar {text : List Char} {instant : Instant} (written : DateAt text instant) :
    instant.InYears (-9999) 9999 := by
  obtain ⟨date, days, dateText, numbered, starts⟩ := written
  refine ⟨date, ?_, ?_⟩
  · rwa [starts, Int.mul_ediv_cancel days (by decide)]
  · cases dateText with
    | unsigned years | positive years | negative years =>
      simp only
      omega

end GridQuery.Calendar
