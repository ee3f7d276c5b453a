import GridQuery.Json.Basic

/-!
The tokens of a JSON text. Characters are consumed one at a time; words (numbers and the three
names) are judged when they end, texts when their closing quote arrives. A text with half of a
surrogate pair and a number beyond the range of doubles are well formed but stand for no value.
-/

namespace GridQuery.Json

inductive Token where
  | openObject
  | closeObject
  | openArray
  | closeArray
  | colon
  | comma
  | scalar (value : Json)
  | flawed

/-- Where the lexer stands. Characters of an unfinished word or text are kept in reverse. After an
error it stays `broken`. -/
inductive LexMode where
  | between
  | broken
  | word (reversed : List Char)
  | text (reversed : List Char)
  | escape (reversed : List Char)

def isBlankChar (c : Char) : Bool :=
  c = ' ' || c = '\t' || c = '\n' || c = '\r'

def isWordChar (c : Char) : Bool :=
  c.isAlphanum || c = '+' || c = '-' || c = '.'

def hexValue? (c : Char) : Option Nat :=
  if '0' ≤ c ∧ c ≤ '9' then some (c.toNat - 0x30)
  else if 'a' ≤ c ∧ c ≤ 'f' then some (c.toNat - 0x57)
  else if 'A' ≤ c ∧ c ≤ 'F' then some (c.toNat - 0x37)
  else none

def hexCode? (a b c d : Char) : Option Nat := do
  let a ← hexValue? a
  let b ← hexValue? b
  let c ← hexValue? c
  let d ← hexValue? d
  return ((a * 16 + b) * 16 + c) * 16 + d

def isHighSurrogate (code : Nat) : Bool :=
  0xD800 ≤ code && code < 0xDC00

def isLowSurrogate (code : Nat) : Bool :=
  0xDC00 ≤ code && code < 0xE000

def simpleEscape? (c : Char) : Option Char :=
  if c = '"' ∨ c = '\\' ∨ c = '/' then some c
  else if c = 'b' then some '\x08'
  else if c = 'f' then some '\x0c'
  else if c = 'n' then some '\n'
  else if c = 'r' then some '\r'
  else if c = 't' then some '\t'
  else none

/-- The code points that the body of a text stands for, halves of surrogate pairs among them. -/
def escapeCodes : List Char → Option (List Nat)
  | [] => some []
  | '\\' :: 'u' :: a :: b :: c :: d :: rest => do
    return (← hexCode? a b c d) :: (← escapeCodes rest)
  | '\\' :: c :: rest => do
    return (← simpleEscape? c).toNat :: (← escapeCodes rest)
  | c :: rest => do
    return c.toNat :: (← escapeCodes rest)

/-- Joins surrogate pairs, none of which may lack a half. -/
def joinSurrogates : List Nat → Option (List Char)
  | [] => some []
  | high :: low :: rest =>
    if isHighSurrogate high then
      if isLowSurrogate low then
        (joinSurrogates rest).map
          (Char.ofNat (0x10000 + (high - 0xD800) * 0x400 + (low - 0xDC00)) :: ·)
      else none
    else if isLowSurrogate high then none
    else (joinSurrogates (low :: rest)).map (Char.ofNat high :: ·)
  | [code] =>
    if isHighSurrogate code || isLowSurrogate code then none else some [Char.ofNat code]

def textToken? (body : List Char) : Option Token := do
  match joinSurrogates (← escapeCodes body) with
  | some text => return .scalar (.string (String.ofList text))
  | none => return .flawed

def digitsValue (digits : List Char) : Nat :=
  digits.foldl (fun value c => value * 10 + (c.toNat - 0x30)) 0

/-- The fraction part of a number, if one stands here, and what follows. -/
def fractionDigits? : List Char → Option (List Char × List Char)
  | '.' :: rest =>
    let digits := rest.takeWhile Char.isDigit
    if digits.isEmpty then none else some (digits, rest.dropWhile Char.isDigit)
  | rest => some ([], rest)

/-- The exponent at the end of a number. -/
def exponentValue? : List Char → Option Int
  | [] => some 0
  | mark :: rest =>
    let (negative, digits) :=
      match rest with
      | '-' :: digits => (true, digits)
      | '+' :: digits => (false, digits)
      | digits => (false, digits)
    if (mark = 'e' ∨ mark = 'E') ∧ ¬ digits.isEmpty ∧ digits.all Char.isDigit then
      some (if negative then -(digitsValue digits : Int) else digitsValue digits)
    else none

def doubleToken (negative : Bool) (digits : Nat) (exponent : Int) : Token :=
  match Binary64.ofDecimal? negative digits exponent with
  | some value => .scalar (.number (.double value))
  | none => .flawed

/-- Without fraction and exponent a number is an integer if it fits in 64 bits. -/
def wholeToken (negative : Bool) (value : Nat) : Token :=
  if negative ∧ 0 < value ∧ value ≤ Nat.pow 2 63 then .scalar (.int (-(value : Int)))
  else if ¬ negative ∧ value < Nat.pow 2 64 then .scalar (.int value)
  else doubleToken negative value 0

def unsignedToken? (negative : Bool) (word : List Char) : Option Token := do
  let whole := word.takeWhile Char.isDigit
  let rest := word.dropWhile Char.isDigit
  if whole.isEmpty ∨ (whole.length > 1 ∧ whole.head? = some '0') then none
  if rest.isEmpty then return wholeToken negative (digitsValue whole)
  else
    let (fraction, rest) ← fractionDigits? rest
    let exponent ← exponentValue? rest
    return doubleToken negative (digitsValue (whole ++ fraction)) (exponent - fraction.length)

def wordToken? (word : List Char) : Option Token :=
  if word = "null".toList then some (.scalar .null)
  else if word = "true".toList then some (.scalar (.bool true))
  else if word = "false".toList then some (.scalar (.bool false))
  else
    match word with
    | '-' :: digits => unsignedToken? true digits
    | digits => unsignedToken? false digits

/-- What a character does between two tokens. -/
def beginToken (c : Char) : List Token × LexMode :=
  if isBlankChar c then ([], .between)
  else if c = '"' then ([], .text [])
  else if c = '\x7b' then ([.openObject], .between)
  else if c = '\x7d' then ([.closeObject], .between)
  else if c = '[' then ([.openArray], .between)
  else if c = ']' then ([.closeArray], .between)
  else if c = ':' then ([.colon], .between)
  else if c = ',' then ([.comma], .between)
  else if isWordChar c then ([], .word [c])
  else ([], .broken)

/-- Consumes one character: the tokens that it completes and the mode after it. -/
def lexStep (mode : LexMode) (c : Char) : List Token × LexMode :=
  match mode with
  | .between => beginToken c
  | .broken => ([], .broken)
  | .word reversed =>
    if isWordChar c then ([], .word (c :: reversed))
    else
      match wordToken? reversed.reverse with
      | some token => let (tokens, next) := beginToken c; (token :: tokens, next)
      | none => ([], .broken)
  | .text reversed =>
    if c = '"' then
      match textToken? reversed.reverse with
      | some token => ([token], .between)
      | none => ([], .broken)
    else if c = '\\' then ([], .escape reversed)
    else if c.toNat < 0x20 then ([], .broken)
    else ([], .text (c :: reversed))
  | .escape reversed => ([], .text (c :: '\\' :: reversed))

/-- The token that the end of the text completes, and whether the text may end here. -/
def lexEnd : LexMode → List Token × Bool
  | .between => ([], true)
  | .word reversed =>
    match wordToken? reversed.reverse with
    | some token => ([token], true)
    | none => ([], false)
  | _ => ([], false)

def tokensFrom (mode : LexMode) : List Char → List Token × Bool
  | [] => lexEnd mode
  | c :: rest =>
    let (tokens, next) := lexStep mode c
    let (others, complete) := tokensFrom next rest
    (tokens ++ others, complete)

/-- The tokens up to the first error, and whether there was none. -/
def tokens (text : List Char) : List Token × Bool :=
  tokensFrom .between text

end GridQuery.Json
