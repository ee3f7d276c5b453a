/-!
The proleptic Gregorian calendar: days counted from 1 January 1970, and the date of each day.
-/

namespace GridQuery.Calendar

structure Date where
  year : Int
  month : Nat
  day : Nat
deriving DecidableEq

def isLeap (year : Int) : Bool :=
  year % 4 = 0 && (year % 100 ≠ 0 || year % 400 = 0)

def monthLengths (leap : Bool) : List Nat :=
  [31, if leap then 29 else 28, 31, 30, 31, 30, 31, 31, 30, 31, 30, 31]

/-- Days of a month that does not exist are none. -/
def monthLength (year : Int) (month : Nat) : Nat :=
  if month = 0 then 0 else (monthLengths (isLeap year))[month - 1]?.getD 0

def Date.Exists (date : Date) : Prop :=
  1 ≤ date.day ∧ date.day ≤ monthLength date.year date.month

instance (date : Date) : Decidable date.Exists :=
  inferInstanceAs (Decidable (_ ∧ _))

/-- Days from 1 January of year 0 to 1 January of `year`. -/
def daysBeforeYear (year : Int) : Int :=
  365 * year + (year + 3) / 4 - (year + 99) / 100 + (year + 399) / 400

/-- Days from 1 January of year 0 to 1 January 1970. -/
def epochDays : Int :=
  daysBeforeYear 1970

/-- Days from the start of the year to the start of the month. -/
def daysBeforeMonth (year : Int) (month : Nat) : Nat :=
  ((monthLengths (isLeap year)).take (month - 1)).foldl (· + ·) 0

def Date.toDays (date : Date) : Int :=
  daysBeforeYear date.year + daysBeforeMonth date.year date.month + (date.day - 1) - epochDays

/-- The year in which the day falls that comes `days` after 1 January of year 0. -/
def yearOfDays (days : Int) : Int :=
  let guess := days * 400 / 146097
  if days < daysBeforeYear guess then guess - 1
  else if daysBeforeYear (guess + 1) ≤ days then guess + 1
  else guess

/-- The month, counted from `month`, and the day that come `days` after the start of the first of
the months of the given lengths. -/
def monthOfDays (month : Nat) (days : Nat) : List Nat → Nat × Nat
  | [] => (month, days + 1)
  | length :: rest =>
    if days < length then (month, days + 1) else monthOfDays (month + 1) (days - length) rest

def Date.ofDays (days : Int) : Date :=
  let fromYearZero := days + epochDays
  let year := yearOfDays fromYearZero
  let dayOfYear := (fromYearZero - daysBeforeYear year).toNat
  let (month, day) := monthOfDays 1 dayOfYear (monthLengths (isLeap year))
  ⟨year, month, day⟩

end GridQuery.Calendar
