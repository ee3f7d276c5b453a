import GridQuery.Json.Token

/-!
The four kinds of TOML strings: basic and literal, each on one line or on several. Every reader
starts after the opening quotes and gives the text and what follows the closing quotes.
-/

namespace GridQuery.Toml

/-- Control characters other than the tab may not stand in a document. -/
def isControl (c : Char) : Bool :=
  (c.toNat < 0x20 && c ≠ '\t') || c.toNat = 0x7F

def scalarOf? (code : Nat) : Option Char :=
  if code.isValidChar then some (Char.ofNat code) else none

def shortEscape? (c : Char) : Option Char :=
  if c = 'b' then some '\x08'
  else if c = 't' then some '\t'
  else if c = 'n' then some '\n'
  else if c = 'f' then some '\x0c'
  else if c = 'r' then some '\r'
  else if c = '"' ∨ c = '\\' then some c
  else none

def prepend (text : List Char) (result : Option (List Char × List Char)) :
    Option (List Char × List Char) :=
  result.map fun (more, rest) => (text ++ more, rest)

def isSpace (c : Char) : Bool :=
  c = ' ' || c = '\t'

/-- Whether only spaces stand before the end of the line. -/
def lineEnds (text : List Char) : Bool :=
  match text.dropWhile isSpace with
  | '\n' :: _ => true
  | '\r' :: '\n' :: _ => true
  | _ => false

def basicText : List Char → Option (List Char × List Char)
  | [] => none
  | '"' :: rest => some ([], rest)
  | '\\' :: 'u' :: a :: b :: c :: d :: rest => do
    let decoded ← scalarOf? (← Json.hexCode? a b c d)
    prepend [decoded] (basicText rest)
  | '\\' :: 'U' :: a :: b :: c :: d :: e :: f :: g :: h :: rest => do
    let high ← Json.hexCode? a b c d
    let decoded ← scalarOf? (high * 0x10000 + (← Json.hexCode? e f g h))
    prepend [decoded] (basicText rest)
  | '\\' :: c :: rest => do
    let decoded ← shortEscape? c
    prepend [decoded] (basicText rest)
  | c :: rest => if isControl c then none else prepend [c] (basicText rest)

def literalText : List Char → Option (List Char × List Char)
  | [] => none
  | '\'' :: rest => some ([], rest)
  | c :: rest => if isControl c then none else prepend [c] (literalText rest)

/-- A backslash at the end of a line skips all blanks up to the next text. Up to two quotes may
stand before the three closing ones. -/
def longBasicText (skipping : Bool) : List Char → Option (List Char × List Char)
  | [] => none
  | '"' :: '"' :: '"' :: '"' :: '"' :: rest => some (['"', '"'], rest)
  | '"' :: '"' :: '"' :: '"' :: rest => some (['"'], rest)
  | '"' :: '"' :: '"' :: rest => some ([], rest)
  | '\\' :: 'u' :: a :: b :: c :: d :: rest => do
    let decoded ← scalarOf? (← Json.hexCode? a b c d)
    prepend [decoded] (longBasicText false rest)
  | '\\' :: 'U' :: a :: b :: c :: d :: e :: f :: g :: h :: rest => do
    let high ← Json.hexCode? a b c d
    let decoded ← scalarOf? (high * 0x10000 + (← Json.hexCode? e f g h))
    prepend [decoded] (longBasicText false rest)
  | '\\' :: c :: rest =>
    if lineEnds (c :: rest) then longBasicText true rest
    else do
      let decoded ← shortEscape? c
      prepend [decoded] (longBasicText false rest)
  | '\r' :: '\n' :: rest => prepend (if skipping then [] else ['\n']) (longBasicText skipping rest)
  | '\n' :: rest => prepend (if skipping then [] else ['\n']) (longBasicText skipping rest)
  | c :: rest =>
    if skipping && isSpace c then longBasicText true rest
    else if isControl c then none
    else prepend [c] (longBasicText false rest)

def longLiteralText : List Char → Option (List Char × List Char)
  | [] => none
  | '\'' :: '\'' :: '\'' :: '\'' :: '\'' :: rest => some (['\'', '\''], rest)
  | '\'' :: '\'' :: '\'' :: '\'' :: rest => some (['\''], rest)
  | '\'' :: '\'' :: '\'' :: rest => some ([], rest)
  | '\r' :: '\n' :: rest => prepend ['\n'] (longLiteralText rest)
  | '\n' :: rest => prepend ['\n'] (longLiteralText rest)
  | c :: rest => if isControl c then none else prepend [c] (longLiteralText rest)

/-- A line break right after the opening quotes does not count. -/
def dropLineBreak : List Char → List Char
  | '\r' :: '\n' :: rest => rest
  | '\n' :: rest => rest
  | text => text

/-- A string of any kind, if one begins here. -/
def string? : List Char → Option (List Char × List Char)
  | '"' :: '"' :: '"' :: rest => longBasicText false (dropLineBreak rest)
  | '"' :: rest => basicText rest
  | '\'' :: '\'' :: '\'' :: rest => longLiteralText (dropLineBreak rest)
  | '\'' :: rest => literalText rest
  | _ => none

end GridQuery.Toml
