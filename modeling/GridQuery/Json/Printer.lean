import GridQuery.Decimal.Shortest
import GridQuery.Json.Basic

/-!
JSON text, compact and indented by two spaces. A double always shows a fraction or an exponent,
so that integers and doubles differ in writing.
-/

namespace GridQuery

/-- Where a double changes from positional to scientific notation: positional if the decimal
point falls at `least` to `greatest` places after the first digit. -/
structure DoubleFormat where
  least : Int
  greatest : Int

namespace Json

/-- Positional from `1e-5` up to, but not including, `1e16`. -/
def doubleFormat : DoubleFormat := ⟨-4, 16⟩

def zeros (count : Nat) : List Char :=
  List.replicate count '0'

def decimalChars (n : Nat) : List Char :=
  Nat.toDigits 10 n

def intChars (value : Int) : List Char :=
  (if value < 0 then ['-'] else []) ++ decimalChars value.natAbs

/-- Drops the zeros at the end of the digits. -/
def trimZeros (digits : List Char) : List Char :=
  (digits.reverse.dropWhile (· = '0')).reverse

/-- Writes the digits `0.d₁d₂… * 10 ^ point`. -/
def layout (digits : List Char) (point : Int) : List Char :=
  let count : Int := digits.length
  if count ≤ point ∧ point ≤ doubleFormat.greatest then
    digits ++ zeros (point - count).toNat ++ ['.', '0']
  else if 0 < point ∧ point ≤ doubleFormat.greatest then
    digits.take point.toNat ++ '.' :: digits.drop point.toNat
  else if doubleFormat.least ≤ point ∧ point ≤ 0 then
    ['0', '.'] ++ zeros (-point).toNat ++ digits
  else
    let exponent := point - 1
    let mantissa :=
      if digits.length ≤ 1 then digits else digits.take 1 ++ '.' :: digits.drop 1
    mantissa ++ 'e' :: (if exponent < 0 then '-' else '+') :: decimalChars exponent.natAbs

def doubleChars (x : Binary64) : List Char :=
  let decimal := Decimal.shortest x
  let digits := decimalChars decimal.digits
  let body :=
    if decimal.digits = 0 then ['0', '.', '0']
    else layout (trimZeros digits) (digits.length + decimal.exponent)
  if x.negative then '-' :: body else body

def numberChars : Number → List Char
  | .integer value => intChars value
  | .double value => doubleChars value

def hexDigit (n : Nat) : Char :=
  Nat.digitChar (n % 16)

/-- Only the quote, the backslash and control characters are escaped. -/
def escapeChar (c : Char) : List Char :=
  if c = '"' then ['\\', '"']
  else if c = '\\' then ['\\', '\\']
  else if c = '\x08' then ['\\', 'b']
  else if c = '\x0c' then ['\\', 'f']
  else if c = '\n' then ['\\', 'n']
  else if c = '\r' then ['\\', 'r']
  else if c = '\t' then ['\\', 't']
  else if c.toNat < 0x20 then
    ['\\', 'u', '0', '0', hexDigit (c.toNat / 16), hexDigit c.toNat]
  else [c]

def quoted (text : String) : List Char :=
  '"' :: text.toList.flatMap escapeChar ++ ['"']

/-- The pieces with the separator between them. -/
def separated (separator : List Char) : List (List Char) → List Char
  | [] => []
  | [piece] => piece
  | piece :: next :: rest => piece ++ separator ++ separated separator (next :: rest)

mutual

def compactChars : Json → List Char
  | .null => "null".toList
  | .bool value => if value then "true".toList else "false".toList
  | .number value => numberChars value
  | .string value => quoted value
  | .array items => '[' :: separated [','] (compactItems items) ++ [']']
  | .object members => '\x7b' :: separated [','] (compactMembers members) ++ ['\x7d']

def compactItems : List Json → List (List Char)
  | [] => []
  | item :: rest => compactChars item :: compactItems rest

def compactMembers : List (String × Json) → List (List Char)
  | [] => []
  | (name, value) :: rest => (quoted name ++ ':' :: compactChars value) :: compactMembers rest

end

def compact (value : Json) : String :=
  String.ofList value.compactChars

def lineBreak (depth : Nat) : List Char :=
  '\n' :: List.replicate (2 * depth) ' '

mutual

/-- Empty containers stay on one line. -/
def prettyChars (depth : Nat) : Json → List Char
  | .array [] => ['[', ']']
  | .object [] => ['\x7b', '\x7d']
  | .array (item :: rest) =>
    '[' :: lineBreak (depth + 1) ++
      separated (',' :: lineBreak (depth + 1)) (prettyItems (depth + 1) (item :: rest)) ++
      lineBreak depth ++ [']']
  | .object (member :: rest) =>
    '\x7b' :: lineBreak (depth + 1) ++
      separated (',' :: lineBreak (depth + 1)) (prettyMembers (depth + 1) (member :: rest)) ++
      lineBreak depth ++ ['\x7d']
  | .null => compactChars .null
  | .bool value => compactChars (.bool value)
  | .number value => compactChars (.number value)
  | .string value => compactChars (.string value)

def prettyItems (depth : Nat) : List Json → List (List Char)
  | [] => []
  | item :: rest => prettyChars depth item :: prettyItems depth rest

def prettyMembers (depth : Nat) : List (String × Json) → List (List Char)
  | [] => []
  | (name, value) :: rest =>
    (quoted name ++ ':' :: ' ' :: prettyChars depth value) :: prettyMembers depth rest

end

def pretty (value : Json) : String :=
  String.ofList (value.prettyChars 0)

end Json

end GridQuery
