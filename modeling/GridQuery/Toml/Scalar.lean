import GridQuery.Calendar.Instant
import GridQuery.Json.Token
import GridQuery.Toml.Tree

/-!
TOML scalars other than strings: booleans, integers, floats, dates and times.
-/

namespace GridQuery.Toml

/-- The digits without the underscores, each of which must stand between two digits. -/
def ungroup? (isDigit : Char → Bool) : List Char → Option (List Char)
  | [] => none
  | [c] => if isDigit c then some [c] else none
  | c :: '_' :: d :: rest =>
    if isDigit c && isDigit d then (ungroup? isDigit (d :: rest)).map (c :: ·) else none
  | c :: d :: rest =>
    if isDigit c then (ungroup? isDigit (d :: rest)).map (c :: ·) else none

def inBase? (base : Nat) (text : List Char) : Option Nat := do
  let digits ← ungroup? (fun c => (Json.hexValue? c).any (· < base)) text
  return digits.foldl (fun value c => value * base + (Json.hexValue? c).getD 0) 0

/-- Decimal digits without a leading zero. -/
def decimal? (text : List Char) : Option (List Char) := do
  let digits ← ungroup? Char.isDigit text
  if digits.length > 1 ∧ digits.head? = some '0' then none
  return digits

def sign : List Char → Bool × List Char
  | '+' :: rest => (false, rest)
  | '-' :: rest => (true, rest)
  | rest => (false, rest)

def inWord (value : Int) : Option Int :=
  if -(Nat.pow 2 63 : Nat) ≤ value ∧ value < (Nat.pow 2 63 : Nat) then some value else none

/-- Integers fit in 64 bits with a sign. -/
def integer? (word : List Char) : Option Int :=
  match word with
  | '0' :: 'x' :: rest => (inBase? 16 rest).bind fun value => inWord value
  | '0' :: 'o' :: rest => (inBase? 8 rest).bind fun value => inWord value
  | '0' :: 'b' :: rest => (inBase? 2 rest).bind fun value => inWord value
  | word => do
    let (negative, rest) := sign word
    let value : Int := Json.digitsValue (← decimal? rest)
    inWord (if negative then -value else value)

/-- Splits at the first character that passes the test. -/
def splitAt (test : Char → Bool) (text : List Char) : List Char × Option (List Char) :=
  match text.dropWhile fun c => !test c with
  | [] => (text, none)
  | _ :: rest => (text.takeWhile fun c => !test c, some rest)

def isFloat (word : List Char) : Bool :=
  let (_, unsigned) := sign word
  if unsigned = "inf".toList ∨ unsigned = "nan".toList then true
  else
    let (mantissa, exponent) := splitAt (fun c => c = 'e' || c = 'E') unsigned
    let (whole, fraction) := splitAt (fun c => c = '.') mantissa
    let exponentDigits := exponent.map fun text => (ungroup? Char.isDigit (sign text).2, sign text)
    let fractionDigits := fraction.map (ungroup? Char.isDigit)
    match decimal? whole, fractionDigits, exponentDigits with
    | none, _, _ => false
    | some _, none, none => false
    | some whole, fraction, exponent =>
      match fraction.getD (some []), exponent.getD (some [], false, []) with
      | some fraction, (some exponent, negative, _) =>
        let power : Int := Json.digitsValue exponent
        (Binary64.ofDecimal? false (Json.digitsValue (whole ++ fraction))
          ((if negative then -power else power) - fraction.length)).isSome
      | _, _ => false

def isDate : List Char → Bool
  | [y₁, y₂, y₃, y₄, '-', m₁, m₂, '-', d₁, d₂] =>
    (Calendar.unsignedDate? false [y₁, y₂, y₃, y₄, '-', m₁, m₂, '-', d₁, d₂]).isSome
  | _ => false

def isFraction : List Char → Bool
  | [] => true
  | '.' :: digits => !digits.isEmpty && digits.all Char.isDigit
  | _ => false

def isTime : List Char → Bool
  | h₁ :: h₂ :: ':' :: m₁ :: m₂ :: ':' :: s₁ :: s₂ :: rest =>
    (Calendar.twoDigits? h₁ h₂).any (· ≤ 23) && (Calendar.twoDigits? m₁ m₂).any (· ≤ 59) &&
      (Calendar.twoDigits? s₁ s₂).any (· ≤ 60) && isFraction rest
  | _ => false

/-- A time of day with an optional offset. -/
def isOffsetTime (text : List Char) : Bool :=
  let isOffset (c : Char) : Bool := c = 'Z' || c = 'z' || c = '+' || c = '-'
  let time := text.takeWhile fun c => !isOffset c
  let offset := text.dropWhile fun c => !isOffset c
  isTime time && (offset.isEmpty || (Calendar.offset? offset).isSome)

def isDateTime (word : List Char) : Bool :=
  isDate word || isTime word ||
    (isDate (word.take 10) && ['T', 't', ' '].contains ((word.drop 10).headD 'x') &&
      isOffsetTime (word.drop 11))

def scalar? (word : List Char) : Option Node :=
  match integer? word with
  | some value => some (.integer value)
  | none =>
    if word = "true".toList ∨ word = "false".toList ∨ isFloat word ∨ isDateTime word then
      some .otherScalar
    else none

end GridQuery.Toml
