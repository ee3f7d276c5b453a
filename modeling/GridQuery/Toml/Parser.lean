import GridQuery.Toml.Scalar
import GridQuery.Toml.Text

/-!
Reading of TOML documents, line by line: headers open tables, and assignments add to the table that
was opened last.
-/

namespace GridQuery.Toml

def skipSpaces (text : List Char) : List Char :=
  text.dropWhile isSpace

def isBareKeyChar (c : Char) : Bool :=
  c.isAlphanum || c = '_' || c = '-'

def isScalarChar (c : Char) : Bool :=
  c.isAlphanum || c = '_' || c = '-' || c = '+' || c = '.' || c = ':'

/-- One segment of a key: bare, or a string on one line. -/
def keySegment? : List Char → Option (String × List Char)
  | '"' :: rest => (basicText rest).map fun (text, rest) => (String.ofList text, rest)
  | '\'' :: rest => (literalText rest).map fun (text, rest) => (String.ofList text, rest)
  | text =>
    let bare := text.takeWhile isBareKeyChar
    if bare.isEmpty then none else some (String.ofList bare, text.dropWhile isBareKeyChar)

/-- A dotted key: the segments before the last one, the last one, and the rest of the text. The
number bounds the segments. -/
def key? : Nat → List Char → Option (List String × String × List Char)
  | 0, _ => none
  | more + 1, text => do
    let (segment, rest) ← keySegment? (skipSpaces text)
    match skipSpaces rest with
    | '.' :: rest =>
      let (path, last, rest) ← key? more rest
      return (segment :: path, last, rest)
    | rest => return ([], segment, rest)

/-- What follows a comment, which ends before the line break. -/
def skipComment? (text : List Char) : Option (List Char) :=
  match text with
  | '#' :: rest =>
    let comment := rest.takeWhile (· ≠ '\n')
    let body := if comment.getLast? = some '\r' then comment.dropLast else comment
    if body.any isControl then none else some (rest.dropWhile (· ≠ '\n'))
  | text => some text

/-- Skips blanks, comments and line breaks. The number bounds the lines. -/
def skipLines? : Nat → List Char → Option (List Char)
  | 0, text => some text
  | more + 1, text => do
    match ← skipComment? (skipSpaces text) with
    | '\n' :: rest => skipLines? more rest
    | '\r' :: '\n' :: rest => skipLines? more rest
    | rest => return rest

/-- The characters of a scalar. A date may be followed by one space and a time. -/
def scalarWord (text : List Char) : List Char × List Char :=
  let word := text.takeWhile isScalarChar
  let rest := text.dropWhile isScalarChar
  match rest with
  | ' ' :: digit :: more =>
    if isDate word ∧ digit.isDigit then
      (word ++ ' ' :: (digit :: more).takeWhile isScalarChar,
        (digit :: more).dropWhile isScalarChar)
    else (word, rest)
  | rest => (word, rest)

mutual

/-- A value and the rest of the text. The number bounds the nesting and the entries. -/
def value? : Nat → List Char → Option (Node × List Char)
  | 0, _ => none
  | more + 1, text =>
    match text with
    | '[' :: rest => (items? more rest).map fun (items, rest) => (.array items, rest)
    | '\x7b' :: rest =>
      match skipSpaces rest with
      | '\x7d' :: rest => some (.table .closed [], rest)
      | rest => (pairs? more [] rest).map fun (entries, rest) => (.table .closed entries, rest)
    | '"' :: _ | '\'' :: _ =>
      (string? text).map fun (text, rest) => (.text (String.ofList text), rest)
    | text => do
      let (word, rest) := scalarWord text
      return (← scalar? word, rest)

/-- The items of an array up to its closing bracket. A comma may follow the last one. -/
def items? : Nat → List Char → Option (List Node × List Char)
  | 0, _ => none
  | more + 1, text => do
    match ← skipLines? text.length text with
    | ']' :: rest => return ([], rest)
    | text =>
      let (first, rest) ← value? more text
      match ← skipLines? rest.length rest with
      | ',' :: rest =>
        let (others, rest) ← items? more rest
        return (first :: others, rest)
      | ']' :: rest => return ([first], rest)
      | _ => none

/-- The assignments of an inline table up to its closing brace. -/
def pairs? : Nat → Entries → List Char → Option (Entries × List Char)
  | 0, _, _ => none
  | more + 1, entries, text => do
    let (path, last, rest) ← key? text.length text
    match rest with
    | '=' :: rest =>
      let (value, rest) ← value? more (skipSpaces rest)
      let entries ← assign path last value entries
      match skipSpaces rest with
      | ',' :: rest => pairs? more entries rest
      | '\x7d' :: rest => return (entries, rest)
      | _ => none
    | _ => none

end

/-- The document so far and the path of the table that was opened last. -/
structure State where
  root : Entries
  current : List String

def State.openAt (change : String → Entries → Option Entries) (path : List String) (last : String)
    (state : State) : Option State := do
  let root ← descend false (fun _ entries => change last entries) path .header state.root
  return ⟨root, path ++ [last]⟩

def State.assign (path : List String) (last : String) (value : Node) (state : State) :
    Option State := do
  let root ← descend false (fun _ entries => Toml.assign path last value entries) state.current
    .header state.root
  return { state with root }

/-- Reads a header or an assignment. -/
def expression? (text : List Char) (state : State) : Option (State × List Char) :=
  match text with
  | '[' :: '[' :: rest => do
    let (path, last, rest) ← key? rest.length rest
    match rest with
    | ']' :: ']' :: rest => return (← state.openAt openRow path last, rest)
    | _ => none
  | '[' :: rest => do
    let (path, last, rest) ← key? rest.length rest
    match rest with
    | ']' :: rest => return (← state.openAt openTable path last, rest)
    | _ => none
  | text => do
    let (path, last, rest) ← key? text.length text
    match rest with
    | '=' :: rest =>
      let (value, rest) ← value? rest.length (skipSpaces rest)
      return (← state.assign path last value, rest)
    | _ => none

/-- Reads expressions to the end, each on a line of its own. The number bounds the lines. -/
def expressions? : Nat → State → List Char → Option State
  | 0, state, text => if text.isEmpty then some state else none
  | more + 1, state, text => do
    match ← skipLines? text.length text with
    | [] => return state
    | text =>
      let (state, rest) ← expression? text state
      match ← skipComment? (skipSpaces rest) with
      | [] => return state
      | '\n' :: rest => expressions? more state rest
      | '\r' :: '\n' :: rest => expressions? more state rest
      | _ => none

/-- The root table of a document. A byte order mark at its start does not count. -/
def parse? (text : String) : Option Entries := do
  let chars := text.toList
  let chars := if chars.head? = some (Char.ofNat 0xFEFF) then chars.drop 1 else chars
  let state ← expressions? chars.length ⟨[], []⟩ chars
  return state.root

end GridQuery.Toml
