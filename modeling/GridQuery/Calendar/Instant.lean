import GridQuery.Calendar.Civil

/-!
Instants, counted in nanoseconds from the start of 1970, read from date-times with an offset and
from plain dates, and written in milliseconds.
-/

namespace GridQuery.Calendar

structure Instant where
  nanoseconds : Int
deriving DecidableEq

def nanosPerMilli : Int := 1000000

def nanosPerSecond : Int := 1000000000

def secondsPerDay : Int := 86400

def nanosPerDay : Int := secondsPerDay * nanosPerSecond

def Instant.ofMillis (millis : Int) : Instant :=
  ⟨millis * nanosPerMilli⟩

def Instant.startOf (date : Date) : Instant :=
  ⟨date.toDays * nanosPerDay⟩

/-- The calendar covers the years from -9999 to 9999. -/
def Instant.afterCalendar (instant : Instant) : Bool :=
  (Instant.startOf ⟨10000, 1, 1⟩).nanoseconds ≤ instant.nanoseconds

def Instant.beforeCalendar (instant : Instant) : Bool :=
  instant.nanoseconds < (Instant.startOf ⟨-9999, 1, 1⟩).nanoseconds

def digit? (c : Char) : Option Nat :=
  if c.isDigit then some (c.toNat - 0x30) else none

def twoDigits? (a b : Char) : Option Nat := do
  return (← digit? a) * 10 + (← digit? b)

def fourDigits? (a b c d : Char) : Option Nat := do
  return (← twoDigits? a b) * 100 + (← twoDigits? c d)

/-- Nanoseconds from the digits after a decimal point; those after the ninth do not count. -/
def fractionNanos (digits : List Char) : Nat :=
  (digits.take 9 ++ List.replicate (9 - digits.length) '0').foldl
    (fun value c => value * 10 + (c.toNat - 0x30)) 0

/-- An optional fraction of a second and what follows it. -/
def fraction? : List Char → Option (Nat × List Char)
  | '.' :: rest =>
    let digits := rest.takeWhile Char.isDigit
    if digits.isEmpty then none else some (fractionNanos digits, rest.dropWhile Char.isDigit)
  | rest => some (0, rest)

/-- The offset from UTC in seconds. -/
def offset? : List Char → Option Int
  | ['Z'] => some 0
  | ['z'] => some 0
  | [sign, a, b, ':', c, d] => do
    let hours ← twoDigits? a b
    let minutes ← twoDigits? c d
    if hours > 23 ∨ minutes > 59 then none
    let seconds : Int := hours * 3600 + minutes * 60
    if sign = '+' then some seconds else if sign = '-' then some (-seconds) else none
  | _ => none

structure Clock where
  hour : Nat
  minute : Nat
  second : Nat
  nanos : Nat

def Clock.Exists (clock : Clock) : Prop :=
  clock.hour ≤ 23 ∧ clock.minute ≤ 59 ∧ clock.second ≤ 59

instance (clock : Clock) : Decidable clock.Exists :=
  inferInstanceAs (Decidable (_ ∧ _))

def Clock.sinceMidnight (clock : Clock) : Int :=
  (clock.hour * 3600 + clock.minute * 60 + clock.second : Nat) * nanosPerSecond + clock.nanos

def Instant.ofLocal (date : Date) (clock : Clock) (offset : Int) : Instant :=
  ⟨date.toDays * nanosPerDay + clock.sinceMidnight - offset * nanosPerSecond⟩

/-- Whether this is the last nanosecond of a month. -/
def Instant.endsMonth (instant : Instant) : Bool :=
  let next := instant.nanoseconds + 1
  next % nanosPerDay = 0 && (Date.ofDays (next / nanosPerDay)).day = 1

/-- A leap second stands for the last nanosecond before it, which must end a month. -/
def leapInstant? (date : Date) (hour minute : Nat) (offset : Int) : Option Instant :=
  let clock : Clock := ⟨hour, minute, 59, 999999999⟩
  let instant := Instant.ofLocal date clock offset
  if clock.Exists ∧ instant.endsMonth ∧ !instant.afterCalendar then some instant else none

/-- A date, a separator of one byte, a time of day and an offset. -/
def dateTime? : List Char → Option Instant
  | y₁ :: y₂ :: y₃ :: y₄ :: '-' :: m₁ :: m₂ :: '-' :: d₁ :: d₂ :: separator ::
      h₁ :: h₂ :: ':' :: n₁ :: n₂ :: ':' :: s₁ :: s₂ :: rest => do
    let year ← fourDigits? y₁ y₂ y₃ y₄
    let month ← twoDigits? m₁ m₂
    let day ← twoDigits? d₁ d₂
    let hour ← twoDigits? h₁ h₂
    let minute ← twoDigits? n₁ n₂
    let second ← twoDigits? s₁ s₂
    let (nanos, rest) ← fraction? rest
    let offset ← offset? rest
    let date : Date := ⟨year, month, day⟩
    if ¬ date.Exists ∨ separator.toNat ≥ 0x80 then none
    if second = 60 then leapInstant? date hour minute offset
    else
      let clock : Clock := ⟨hour, minute, second, nanos⟩
      if clock.Exists then some (.ofLocal date clock offset) else none
  | _ => none

def unsignedDate? (negative : Bool) : List Char → Option Instant
  | [y₁, y₂, y₃, y₄, '-', m₁, m₂, '-', d₁, d₂] => do
    let year ← fourDigits? y₁ y₂ y₃ y₄
    let month ← twoDigits? m₁ m₂
    let day ← twoDigits? d₁ d₂
    let date : Date := ⟨if negative then -(year : Int) else year, month, day⟩
    if date.Exists then some (.startOf date) else none
  | _ => none

/-- A date with an optional sign of the year stands for its midnight in UTC. -/
def plainDate? : List Char → Option Instant
  | '+' :: rest => unsignedDate? false rest
  | '-' :: rest => unsignedDate? true rest
  | text => unsignedDate? false text

/-- The decimal digits of `n`, with zeros in front up to the given width. -/
def padded (width n : Nat) : List Char :=
  let digits := Nat.toDigits 10 n
  List.replicate (width - digits.length) '0' ++ digits

def yearChars (year : Int) : List Char :=
  (if year < 0 then ['-'] else []) ++ padded 4 year.natAbs

/-- `YYYY-MM-DDThh:mm:ss.mmmZ` in UTC. The fraction is cut to milliseconds. -/
def Instant.chars (instant : Instant) : List Char :=
  let date := Date.ofDays (instant.nanoseconds / nanosPerDay)
  let millis := (instant.nanoseconds % nanosPerDay / nanosPerMilli).toNat
  let seconds := millis / 1000
  yearChars date.year ++ '-' :: padded 2 date.month ++ '-' :: padded 2 date.day ++
    'T' :: padded 2 (seconds / 3600) ++ ':' :: padded 2 (seconds / 60 % 60) ++
    ':' :: padded 2 (seconds % 60) ++ '.' :: padded 3 (millis % 1000) ++ ['Z']

def Instant.text (instant : Instant) : String :=
  String.ofList instant.chars

end GridQuery.Calendar
