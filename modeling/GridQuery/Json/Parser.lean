import GridQuery.Json.Token

/-!
Strict reading of JSON text: one value, no comments, no trailing commas, containers nested at most
`nestingLimit` deep. The reader is a machine with a stack of open containers that consumes one
token at a time. Inside parts of a document that its reader skips, only the form matters: there it
may be nested deeper and hold flawed scalars.
-/

namespace GridQuery.Json

/-- An open container with its entries so far in reverse. -/
inductive Frame where
  | inArray (items : List Json)
  | inObject (members : List (String × Json)) (name : String)

inductive Awaited where
  | value
  | firstItem
  | firstName (members : List (String × Json))
  | name (members : List (String × Json))
  | colon (members : List (String × Json)) (name : String)
  | separator (value : Json)

/-- `awaited` belongs to the innermost frame, or to the whole document where there is none. An
object has a frame only while one of its members is read. -/
structure ParseState where
  frames : List Frame
  awaited : Awaited

def nestingLimit : Nat := 127

def ParseState.start : ParseState :=
  ⟨[], .value⟩

/-- How strictly a document is read: the greatest nesting, and the places that are skipped. -/
structure Strictness where
  limit : Nat
  skips : List Frame → Bool

def strict : Strictness :=
  ⟨nestingLimit, fun _ => false⟩

def Strictness.opens (strictness : Strictness) (frames : List Frame) : Bool :=
  frames.length < strictness.limit || strictness.skips frames

def beginValue (strictness : Strictness) (frames : List Frame) : Token → Option ParseState
  | .scalar value => some ⟨frames, .separator value⟩
  | .flawed => if strictness.skips frames then some ⟨frames, .separator .null⟩ else none
  | .openArray => if strictness.opens frames then some ⟨.inArray [] :: frames, .firstItem⟩ else none
  | .openObject => if strictness.opens frames then some ⟨frames, .firstName []⟩ else none
  | _ => none

def beginMember (strictness : Strictness) (frames : List Frame) (members : List (String × Json)) :
    Token → Option ParseState
  | .scalar (.string name) => some ⟨frames, .colon members name⟩
  | .flawed => if strictness.skips frames then some ⟨frames, .colon members ""⟩ else none
  | _ => none

/-- What follows a complete value. -/
def afterValue (value : Json) : List Frame → Token → Option ParseState
  | .inArray items :: frames, .comma => some ⟨.inArray (value :: items) :: frames, .value⟩
  | .inArray items :: frames, .closeArray =>
    some ⟨frames, .separator (.array (value :: items).reverse)⟩
  | .inObject members name :: frames, .comma =>
    some ⟨frames, .name ((name, value) :: members)⟩
  | .inObject members name :: frames, .closeObject =>
    some ⟨frames, .separator (.object ((name, value) :: members).reverse)⟩
  | _, _ => none

def parseStep (strictness : Strictness) (state : ParseState) (token : Token) :
    Option ParseState :=
  match state.awaited, token with
  | .value, token => beginValue strictness state.frames token
  | .firstItem, .closeArray => some ⟨state.frames.drop 1, .separator (.array [])⟩
  | .firstItem, token => beginValue strictness state.frames token
  | .firstName _, .closeObject => some ⟨state.frames, .separator (.object [])⟩
  | .firstName members, token => beginMember strictness state.frames members token
  | .name members, token => beginMember strictness state.frames members token
  | .colon members name, .colon => some ⟨.inObject members name :: state.frames, .value⟩
  | .separator value, token => afterValue value state.frames token
  | _, _ => none

/-- Consumes tokens up to the first that does not fit. -/
def parseTokens (strictness : Strictness) (state : ParseState) :
    List Token → ParseState × Bool
  | [] => (state, true)
  | token :: rest =>
    match parseStep strictness state token with
    | some next => parseTokens strictness next rest
    | none => (state, false)

def ParseState.result? (state : ParseState) : Option Json :=
  match state.frames, state.awaited with
  | [], .separator value => some value
  | _, _ => none

/-- What the reader has read when the text ends or breaks off, and whether it is all of a
document. -/
def readText (strictness : Strictness) (text : String) : ParseState × Bool :=
  let (tokens, lexed) := tokens text.toList
  let (state, parsed) := parseTokens strictness .start tokens
  (state, lexed && parsed && state.result?.isSome)

/-- The document as written: members in written order, repeated names kept. -/
def document? (strictness : Strictness) (text : String) : Option Json :=
  match readText strictness text with
  | (state, true) => state.result?
  | (_, false) => none

/-- The value that a text stands for. -/
def parse? (text : String) : Option Json :=
  (document? strict text).map canonical

end GridQuery.Json
