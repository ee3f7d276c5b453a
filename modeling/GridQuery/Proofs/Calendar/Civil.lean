import GridQuery.Calendar.Civil

/-!
The calendar counts every day once: the date of a day exists, and the days up to it are those that
it was made from.
-/

namespace GridQuery.Calendar

theorem daysBeforeYear_mono {year later : Int} (order : year ≤ later) :
    daysBeforeYear year ≤ daysBeforeYear later := by
  unfold daysBeforeYear
  omega

/-- The days of all the months together. -/
def total (lengths : List Nat) : Nat :=
  lengths.foldl (· + ·) 0

theorem total_cons (length : Nat) (rest : List Nat) :
    total (length :: rest) = length + total rest := by
  change rest.foldl (· + ·) (0 + length) = length + rest.foldl (· + ·) 0
  rw [Nat.add_comm 0 length]
  exact List.foldl_assoc

theorem total_take_add_le {lengths : List Nat} {place : Nat} (inside : place < lengths.length) :
    total (lengths.take place) + lengths[place] ≤ total lengths := by
  induction lengths generalizing place with
  | nil => cases inside
  | cons length rest ih =>
    cases place with
    | zero =>
      rw [List.take_zero, total_cons, List.getElem_cons_zero]
      change 0 + length ≤ length + total rest
      omega
    | succ place =>
      have later := ih (Nat.lt_of_succ_lt_succ inside)
      rw [List.take_succ_cons, total_cons, total_cons, List.getElem_cons_succ]
      omega

theorem total_monthLengths (leap : Bool) :
    total (monthLengths leap) = if leap then 366 else 365 := by
  cases leap <;> rfl

theorem length_monthLengths (leap : Bool) : (monthLengths leap).length = 12 := by
  cases leap <;> rfl

/-- Between two starts of years lie the days of the months of the earlier year. -/
theorem daysBeforeYear_succ (year : Int) :
    daysBeforeYear (year + 1) = daysBeforeYear year + total (monthLengths (isLeap year)) := by
  rw [total_monthLengths]
  unfold daysBeforeYear
  split
  next leap =>
    simp only [isLeap, Bool.and_eq_true, Bool.or_eq_true, decide_eq_true_eq] at leap
    omega
  next common =>
    simp only [isLeap, Bool.and_eq_true, Bool.or_eq_true, decide_eq_true_eq] at common
    omega

/-- The year of a day has begun by then and has not ended. -/
theorem yearOfDays_spec (days : Int) :
    daysBeforeYear (yearOfDays days) ≤ days ∧ days < daysBeforeYear (yearOfDays days + 1) := by
  unfold yearOfDays
  have guess := Int.mul_ediv_add_emod (days * 400) 146097
  have bound := Int.emod_nonneg (days * 400) (by decide : (146097 : Int) ≠ 0)
  have bound' := Int.emod_lt_of_pos (days * 400) (by decide : (0 : Int) < 146097)
  generalize days * 400 / 146097 = year at *
  simp only
  split
  next before =>
    refine ⟨?_, by rwa [Int.sub_add_cancel]⟩
    unfold daysBeforeYear
    omega
  next notBefore =>
    split
    next after =>
      refine ⟨after, ?_⟩
      unfold daysBeforeYear
      omega
    next notAfter => exact ⟨Int.not_lt.mp notBefore, Int.not_le.mp notAfter⟩

theorem le_yearOfDays_iff {year days : Int} :
    year ≤ yearOfDays days ↔ daysBeforeYear year ≤ days := by
  obtain ⟨begun, within⟩ := yearOfDays_spec days
  constructor
  · intro order
    exact Int.le_trans (daysBeforeYear_mono order) begun
  · intro reached
    apply Int.not_lt.mp
    intro earlier
    have ended := daysBeforeYear_mono (show yearOfDays days + 1 ≤ year by omega)
    omega

/-- A day that falls into the given months falls into one of them, at some day of it. -/
theorem monthOfDays_spec (lengths : List Nat) (month days : Nat) (short : days < total lengths) :
    ∃ (place : Nat) (inside : place < lengths.length) (day : Nat),
      monthOfDays month days lengths = (month + place, day + 1) ∧ day < lengths[place] ∧
        days = total (lengths.take place) + day := by
  induction lengths generalizing month days with
  | nil => cases short
  | cons length rest ih =>
    rw [monthOfDays]
    split
    next here => exact ⟨0, Nat.zero_lt_succ _, days, rfl, here, (Nat.zero_add days).symm⟩
    next later =>
      rw [total_cons] at short
      obtain ⟨place, inside, day, found, within, total⟩ :=
        ih (month + 1) (days - length) (by omega)
      refine ⟨place + 1, Nat.succ_lt_succ inside, day, ?_, within, ?_⟩
      · rw [found, Nat.add_right_comm, Nat.add_assoc]
      · rw [List.take_succ_cons, total_cons]
        omega

theorem daysBeforeMonth_eq_total (year : Int) (month : Nat) :
    daysBeforeMonth year month = total ((monthLengths (isLeap year)).take (month - 1)) :=
  rfl

/-- A day has a date, which comes as many days after the start of 1970. -/
theorem ofDays_spec (days : Int) :
    (Date.ofDays days).year = yearOfDays (days + epochDays) ∧ (Date.ofDays days).Exists ∧
      (Date.ofDays days).toDays = days := by
  obtain ⟨begun, within⟩ := yearOfDays_spec (days + epochDays)
  rw [daysBeforeYear_succ] at within
  rw [Date.ofDays]
  generalize yearOfDays (days + epochDays) = year at *
  obtain ⟨place, inside, day, found, short, total⟩ :=
    monthOfDays_spec (monthLengths (isLeap year)) 1
      (days + epochDays - daysBeforeYear year).toNat (by omega)
  simp only [found, Date.Exists, Date.toDays, daysBeforeMonth_eq_total, monthLength,
    Nat.add_sub_cancel_left, List.getElem?_eq_getElem inside, Option.getD_some]
  rw [if_neg (Nat.ne_of_gt (Nat.lt_add_right place Nat.one_pos))]
  exact ⟨trivial, ⟨Nat.le_add_left 1 day, short⟩, by omega⟩

section

variable {date : Date}

/-- The month of a date that exists is one of the twelve, and the day is one of the month's. -/
theorem Date.Exists.place (real : date.Exists) : 1 ≤ date.month ∧
    ∃ inside : date.month - 1 < (monthLengths (isLeap date.year)).length,
      date.day ≤ (monthLengths (isLeap date.year))[date.month - 1] := by
  obtain ⟨first, last⟩ := real
  rw [monthLength] at last
  split at last
  next => omega
  next named =>
    refine ⟨Nat.one_le_iff_ne_zero.mpr named, ?_⟩
    have inside : date.month - 1 < (monthLengths (isLeap date.year)).length := by
      apply Nat.not_le.mp
      intro outside
      rw [List.getElem?_eq_none outside, Option.getD_none] at last
      omega
    rw [List.getElem?_eq_getElem inside, Option.getD_some] at last
    exact ⟨inside, last⟩

theorem Date.Exists.month_le (real : date.Exists) : date.month ≤ 12 := by
  obtain ⟨_, inside, _⟩ := real.place
  rw [length_monthLengths] at inside
  omega

theorem Date.Exists.day_le (real : date.Exists) : date.day ≤ 31 := by
  obtain ⟨_, inside, short⟩ := real.place
  have long : ∀ leap, ∀ length ∈ monthLengths leap, length ≤ 31 := by decide
  exact Nat.le_trans short (long _ _ (List.getElem_mem inside))

/-- A date that exists falls before the end of its year. -/
theorem Date.Exists.toDays_lt (real : date.Exists) :
    date.toDays < daysBeforeYear (date.year + 1) - epochDays := by
  obtain ⟨_, inside, short⟩ := real.place
  have whole := total_take_add_le inside
  rw [Date.toDays, daysBeforeMonth_eq_total, daysBeforeYear_succ]
  omega

end

end GridQuery.Calendar
