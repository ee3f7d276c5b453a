import GridQuery.Calendar.Instant
import GridQuery.Error

/-!
The dates among JSON values: a date-time or a date as text, or a number of milliseconds since the
start of 1970. All are written in one canonical form.
-/

namespace GridQuery

namespace Calendar

/-- The instant of a number of milliseconds, if the calendar covers it. -/
def Instant.ofEpochMillis? (millis : Int) : Option Instant :=
  let instant := Instant.ofMillis millis
  if instant.afterCalendar || instant.beforeCalendar then none else some instant

/-- A date-time that falls after the calendar in UTC has no canonical form and is an error. -/
def Instant.ofText? (text : String) : Except ViewError (Option Instant) :=
  match dateTime? text.toList with
  | some instant => if instant.afterCalendar then .error .beyondCalendar else .ok (some instant)
  | none => .ok (plainDate? text.toList)

def Instant.ofJson? : Json → Except ViewError (Option Instant)
  | .string text => Instant.ofText? text
  | .number (.integer millis) => .ok (Instant.ofEpochMillis? millis)
  | .number (.double millis) => .ok (Instant.ofEpochMillis? millis.round)
  | _ => .ok none

end Calendar

/-- The canonical text of a date, nothing for any other value. -/
def canonicalDate? (value : Json) : Except ViewError (Option Json) := do
  return (← Calendar.Instant.ofJson? value).map fun instant => .string instant.text

end GridQuery
