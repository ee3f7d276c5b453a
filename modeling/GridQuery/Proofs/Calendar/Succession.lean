import GridQuery.Proofs.Calendar.Civil
import Mathlib.Data.Int.Init

/-!
Days are numbered by going from one date to the next, and back, from 1 January 1970. The number of a
date comes out the same as the days that are counted by years and months, and later dates have
greater numbers.
-/

namespace GridQuery.Calendar

/-- The date of the following day. -/
def Date.next (date : Date) : Date :=
  if date.day < monthLength date.year date.month then ⟨date.year, date.month, date.day + 1⟩
  else if date.month < 12 then ⟨date.year, date.month + 1, 1⟩
  else ⟨date.year + 1, 1, 1⟩

/-- Day 0 is 1 January 1970, and the numbers go up by one from day to day. -/
inductive DayNumber : Date → Int → Prop
  | epoch : DayNumber ⟨1970, 1, 1⟩ 0
  | next {date : Date} {days : Int} (before : DayNumber date days) :
      DayNumber date.next (days + 1)
  | previous {date : Date} {days : Int} (real : date.Exists)
      (after : DayNumber date.next (days + 1)) : DayNumber date days

/-- By year, then by month, then by day. -/
def Date.Before (date later : Date) : Prop :=
  date.year < later.year ∨ date.year = later.year ∧
    (date.month < later.month ∨ date.month = later.month ∧ date.day < later.day)

theorem total_take_succ {lengths : List Nat} {place : Nat} (inside : place < lengths.length) :
    total (lengths.take (place + 1)) = total (lengths.take place) + lengths[place] := by
  unfold total
  rw [List.take_add_one, List.getElem?_eq_getElem inside, Option.toList_some, List.foldl_append]
  rfl

theorem total_take_add_le_take {lengths : List Nat} {place later : Nat} (order : place < later)
    (inside : place < lengths.length) :
    total (lengths.take place) + lengths[place] ≤ total (lengths.take later) := by
  have within : place < (lengths.take later).length := by
    rw [List.length_take]
    omega
  have part := total_take_add_le within
  rwa [List.take_take, Nat.min_eq_left (Nat.le_of_lt order), List.getElem_take] at part

theorem monthLength_pos (year : Int) {month : Nat} (named : month ≠ 0) (short : month ≤ 12) :
    1 ≤ monthLength year month := by
  have lengths : ∀ leap : Bool, ∀ place < 12, 1 ≤ (monthLengths leap)[place]?.getD 0 := by decide
  rw [monthLength, if_neg named]
  exact lengths (isLeap year) (month - 1) (by omega)

/-- The months before the last one and the last one make the year. -/
theorem daysBeforeYear_succ_of_last (year : Int) : daysBeforeYear (year + 1) =
    daysBeforeYear year + (daysBeforeMonth year 12 + monthLength year 12 : Nat) := by
  have whole : ∀ leap : Bool, total (monthLengths leap) =
      total ((monthLengths leap).take 11) + (monthLengths leap)[11]?.getD 0 := by decide
  rw [daysBeforeYear_succ, whole, daysBeforeMonth_eq_total, monthLength, if_neg (by decide)]

namespace Date

variable {date later : Date}

theorem Exists.monthLength_eq (real : date.Exists) :
    ∃ inside : date.month - 1 < (monthLengths (isLeap date.year)).length,
      monthLength date.year date.month = (monthLengths (isLeap date.year))[date.month - 1] := by
  obtain ⟨named, inside, _⟩ := real.place
  refine ⟨inside, ?_⟩
  rw [monthLength, if_neg (by omega), List.getElem?_eq_getElem inside, Option.getD_some]

/-- A month begins where the one before it ends. -/
theorem Exists.daysBeforeMonth_succ (real : date.Exists) :
    daysBeforeMonth date.year (date.month + 1) =
      daysBeforeMonth date.year date.month + monthLength date.year date.month := by
  obtain ⟨inside, length⟩ := real.monthLength_eq
  have following : date.month + 1 - 1 = date.month - 1 + 1 := by
    have named := real.place.1
    omega
  rw [length, daysBeforeMonth_eq_total, daysBeforeMonth_eq_total, following,
    total_take_succ inside]

theorem exists_next (date : Date) : date.next.Exists := by
  unfold Date.next
  split
  next inside => exact ⟨Nat.le_add_left 1 date.day, inside⟩
  next =>
    split
    next early => exact ⟨Nat.le_refl 1, monthLength_pos _ (Nat.succ_ne_zero date.month) early⟩
    next => exact ⟨Nat.le_refl 1, monthLength_pos _ Nat.one_ne_zero (Nat.le_add_left 1 11)⟩

/-- Within the month, across its end and across the end of the year, the days go up by one. -/
theorem Exists.toDays_next (real : date.Exists) : date.next.toDays = date.toDays + 1 := by
  have last : date.day ≤ monthLength date.year date.month := real.2
  unfold Date.next
  split
  next =>
    simp only [toDays]
    omega
  next full =>
    split
    next =>
      have step := real.daysBeforeMonth_succ
      simp only [toDays]
      omega
    next late =>
      have december : date.month = 12 := Nat.le_antisymm real.month_le (Nat.not_lt.mp late)
      have step := daysBeforeYear_succ_of_last date.year
      have start : daysBeforeMonth (date.year + 1) 1 = 0 := rfl
      rw [december] at last full
      simp only [toDays, december, start]
      omega

theorem toDays_lt_of_before (real : date.Exists) (real' : later.Exists)
    (before : date.Before later) : date.toDays < later.toDays := by
  have first : 1 ≤ later.day := real'.1
  rcases before with years | ⟨sameYear, months | ⟨sameMonth, days⟩⟩
  · have ended := real.toDays_lt
    have begun := daysBeforeYear_mono (show date.year + 1 ≤ later.year by omega)
    unfold toDays at *
    omega
  · obtain ⟨named, inside, short⟩ := real.place
    have ended := total_take_add_le_take
      (show date.month - 1 < later.month - 1 by omega) inside
    unfold toDays
    rw [daysBeforeMonth_eq_total, daysBeforeMonth_eq_total, ← sameYear]
    omega
  · unfold toDays
    rw [sameYear, sameMonth]
    omega

theorem before_or_eq_or_before (date later : Date) :
    date.Before later ∨ date = later ∨ later.Before date := by
  obtain ⟨year, month, day⟩ := date
  obtain ⟨year', month', day'⟩ := later
  unfold Before
  simp only [mk.injEq]
  omega

theorem before_of_toDays_lt (real : date.Exists) (real' : later.Exists)
    (order : date.toDays < later.toDays) : date.Before later := by
  rcases before_or_eq_or_before date later with before | rfl | after
  · exact before
  · exact absurd order (Int.lt_irrefl _)
  · exact absurd order (Int.lt_asymm (toDays_lt_of_before real' real after))

theorem eq_of_toDays_eq (real : date.Exists) (real' : later.Exists)
    (same : date.toDays = later.toDays) : date = later := by
  rcases before_or_eq_or_before date later with before | equal | after
  · exact absurd same (Int.ne_of_lt (toDays_lt_of_before real real' before))
  · exact equal
  · exact absurd same.symm (Int.ne_of_lt (toDays_lt_of_before real' real after))

theorem ofDays_succ (days : Int) : ofDays (days + 1) = (ofDays days).next := by
  obtain ⟨_, real, count⟩ := ofDays_spec days
  obtain ⟨_, real', count'⟩ := ofDays_spec (days + 1)
  exact eq_of_toDays_eq real' (exists_next _) (by rw [count', real.toDays_next, count])

end Date

theorem dayNumber_ofDays (days : Int) : DayNumber (Date.ofDays days) days := by
  induction days using Int.induction_on with
  | zero => exact .epoch
  | succ days ih =>
    rw [Date.ofDays_succ]
    exact .next ih
  | pred days ih =>
    refine .previous (ofDays_spec _).2.1 ?_
    rwa [← Date.ofDays_succ, Int.sub_add_cancel]

section

variable {date : Date} {days : Int}

/-- The dates that have a number are those that exist, each with its count of days. -/
theorem dayNumber_iff : DayNumber date days ↔ date.Exists ∧ date.toDays = days := by
  constructor
  · intro numbered
    induction numbered with
    | epoch => decide
    | next before ih => exact ⟨Date.exists_next _, by rw [ih.1.toDays_next, ih.2]⟩
    | previous real after ih =>
      have step := real.toDays_next
      exact ⟨real, by omega⟩
  · intro ⟨real, count⟩
    obtain ⟨_, real', count'⟩ := ofDays_spec days
    rw [Date.eq_of_toDays_eq real real' (count.trans count'.symm)]
    exact dayNumber_ofDays days

theorem DayNumber.ofDays_eq (numbered : DayNumber date days) : Date.ofDays days = date := by
  obtain ⟨real, count⟩ := dayNumber_iff.mp numbered
  obtain ⟨_, real', count'⟩ := ofDays_spec days
  exact Date.eq_of_toDays_eq real' real (count'.trans count.symm)

end

end GridQuery.Calendar
