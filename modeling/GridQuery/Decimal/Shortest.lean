import GridQuery.Decimal.Binary64

/-!
The shortest decimal that reads back as a given double. A decimal reads back if it lies in the
interval of reals that round to the double. On the grid of decimals with a given number of
digits only the two neighbours of the value need to be tried.
-/

namespace GridQuery

/-- The decimal `digits * 10 ^ exponent`. -/
structure Decimal where
  digits : Nat
  exponent : Int
deriving DecidableEq

namespace Decimal

/-- The reals that round to a double, in units of `2 ^ exponent`. The ends belong to it if
`closed`. -/
structure Interval where
  low : Nat
  middle : Nat
  high : Nat
  exponent : Int
  closed : Bool

/-- Below a power of two the doubles are twice as dense as above it. -/
def Interval.around (x : Binary64) : Interval where
  low := if x.significand = normalUnit ∧ x.exponent > -1074 then 4 * x.significand - 1
    else 4 * x.significand - 2
  middle := 4 * x.significand
  high := 4 * x.significand + 2
  exponent := x.exponent - 2
  closed := x.significand % 2 = 0

/-- The factors by which units of `2 ^ binary` and of `10 ^ decimal` become integers. -/
def commonScale (binary decimal : Int) : Nat × Nat :=
  (Nat.pow 2 binary.toNat * Nat.pow 10 (-decimal).toNat,
    Nat.pow 10 decimal.toNat * Nat.pow 2 (-binary).toNat)

def Interval.contains (interval : Interval) (candidate : Decimal) : Bool :=
  let (unit, grid) := commonScale interval.exponent candidate.exponent
  let point := candidate.digits * grid
  if interval.closed then interval.low * unit ≤ point && point ≤ interval.high * unit
  else interval.low * unit < point && point < interval.high * unit

/-- Whether `10 ^ power` is at most `middle * 2 ^ exponent`. -/
def reaches (middle : Nat) (exponent power : Int) : Bool :=
  let (unit, grid) := commonScale exponent power
  grid ≤ middle * unit

/-- The power of ten of the leading digit. -/
def leadingPower (middle : Nat) (exponent : Int) : Int :=
  let guess := ((Nat.log2 middle : Int) + exponent) * 30103 / 100000
  if reaches middle exponent (guess + 1) then guess + 1
  else if reaches middle exponent guess then guess
  else guess - 1

/-- The nearer of the two neighbours on the grid of `10 ^ power` that read back, a tie going to
the even one. -/
def neighbour? (interval : Interval) (power : Int) : Option Decimal :=
  let (unit, grid) := commonScale interval.exponent power
  let value := interval.middle * unit
  let below := value / grid
  let lower : Decimal := ⟨below, power⟩
  let upper : Decimal := ⟨below + 1, power⟩
  match interval.contains lower, interval.contains upper with
  | true, true =>
    let twice := 2 * (value % grid)
    if twice < grid ∨ (twice = grid ∧ below % 2 = 0) then some lower else some upper
  | true, false => some lower
  | false, true => some upper
  | false, false => none

/-- Tries the grids of ever more digits. -/
def search (interval : Interval) (power : Int) : Nat → Decimal
  | 0 => (neighbour? interval power).getD ⟨interval.middle, power⟩
  | more + 1 => (neighbour? interval power).getD (search interval (power - 1) more)

/-- Seventeen digits always suffice. -/
def shortest (x : Binary64) : Decimal :=
  if x.isZero then ⟨0, 0⟩
  else
    let interval := Interval.around x
    search interval (leadingPower interval.middle interval.exponent) 16

end Decimal

end GridQuery
