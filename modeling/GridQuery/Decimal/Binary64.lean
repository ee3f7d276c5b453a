/-!
Finite doubles as exact numbers: a sign and the exponent and fraction fields of the 64-bit form,
with rounding to the nearest double from integers and decimals in exact arithmetic.
-/

namespace GridQuery

/-- The least significand of 53 bits. -/
def normalUnit : Nat := Nat.pow 2 52

/-- The magnitudes of finite doubles lie below that of infinity. -/
def infinityMagnitude : Nat := 0x7FF * normalUnit

/-- Magnitudes are ordered as the absolute values that they stand for. -/
structure Binary64 where
  negative : Bool
  magnitude : Nat
  finite : magnitude < infinityMagnitude
deriving DecidableEq

namespace Binary64

/-- The value is `significand * 2 ^ exponent` up to its sign. -/
def significand (x : Binary64) : Nat :=
  if x.magnitude < normalUnit then x.magnitude else normalUnit + x.magnitude % normalUnit

def exponent (x : Binary64) : Int :=
  (max 1 (x.magnitude / normalUnit) : Nat) - 1075

def isZero (x : Binary64) : Bool :=
  x.magnitude = 0

/-- Equality of values: the two zeros are equal. -/
def sameValue (x y : Binary64) : Bool :=
  x.magnitude = y.magnitude && (x.negative = y.negative || x.isZero)

def signed? (negative : Bool) (magnitude : Nat) : Option Binary64 :=
  if finite : magnitude < infinityMagnitude then some ⟨negative, magnitude, finite⟩ else none

/-- The integer nearest to `numerator / denominator`, a half going to the even neighbour. -/
def roundHalfEven (numerator denominator : Nat) : Nat :=
  let below := numerator / denominator
  let twice := 2 * (numerator % denominator)
  if twice < denominator then below
  else if denominator < twice then below + 1
  else below + below % 2

/-- `numerator / (denominator * 2 ^ exponent)` as a fraction of integers. -/
def scaled (numerator denominator : Nat) (exponent : Int) : Nat × Nat :=
  if exponent ≥ 0 then (numerator, denominator * Nat.pow 2 exponent.toNat)
  else (numerator * Nat.pow 2 (-exponent).toNat, denominator)

/-- The exponent at which `numerator / denominator` has 53 significant bits, but at least that of
the least double. -/
def roundingExponent (numerator denominator : Nat) : Int :=
  let guess : Int := (Nat.log2 numerator : Int) - (Nat.log2 denominator : Int)
  let (top, bottom) := scaled numerator denominator guess
  max (-1074) ((if top < bottom then guess - 1 else guess) - 52)

/-- The magnitude nearest to `numerator / denominator`, perhaps that of infinity or more. -/
def nearestMagnitude (numerator denominator : Nat) : Nat :=
  if numerator = 0 then 0
  else
    let exponent := roundingExponent numerator denominator
    let (top, bottom) := scaled numerator denominator exponent
    (exponent + 1074).toNat * normalUnit + roundHalfEven top bottom

def decimalLength (n : Nat) : Nat :=
  (Nat.toDigits 10 n).length

/-- The double nearest to `digits * 10 ^ exponent`, unless that overflows. Values far outside the
range of doubles are settled by their length alone. -/
def ofDecimal? (negative : Bool) (digits : Nat) (exponent : Int) : Option Binary64 :=
  let size : Int := decimalLength digits + exponent
  if digits = 0 ∨ size < -400 then signed? negative 0
  else if size > 400 then none
  else if exponent ≥ 0 then
    signed? negative (nearestMagnitude (digits * Nat.pow 10 exponent.toNat) 1)
  else signed? negative (nearestMagnitude digits (Nat.pow 10 (-exponent).toNat))

def ofInt? (value : Int) : Option Binary64 :=
  signed? (value < 0) (nearestMagnitude value.natAbs 1)

/-- The nearest integer, a half going away from zero. -/
def round (x : Binary64) : Int :=
  let magnitude :=
    if x.exponent ≥ 0 then x.significand * Nat.pow 2 x.exponent.toNat
    else (2 * x.significand + Nat.pow 2 (-x.exponent).toNat) / Nat.pow 2 ((-x.exponent).toNat + 1)
  if x.negative then -(magnitude : Int) else magnitude

end Binary64

end GridQuery
