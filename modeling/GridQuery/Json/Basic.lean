import GridQuery.Decimal.Binary64
import GridQuery.Named

/-!
JSON values. The members of a value's objects are in ascending order of their names, each name
once (`Json.Canonical`). A document as it was written may repeat names and have any order; it
becomes a value by `Json.canonical`.
-/

namespace GridQuery

/-- An integer and a double are different numbers even where their values agree. -/
inductive Number where
  | integer (value : Int)
  | double (value : Binary64)
deriving DecidableEq

def Number.equal : Number → Number → Bool
  | .integer left, .integer right => left = right
  | .double left, .double right => left.sameValue right
  | _, _ => false

inductive Json where
  | null
  | bool (value : Bool)
  | number (value : Number)
  | string (value : String)
  | array (items : List Json)
  | object (members : List (String × Json))

namespace Json

instance : Inhabited Json := ⟨.null⟩

def int (value : Int) : Json :=
  .number (.integer value)

def strings (texts : List String) : Json :=
  .array (texts.map .string)

def get? (name : String) : Json → Option Json
  | .object members => Named.find? name members
  | _ => none

/-- The member under `name`, null where there is none. -/
def getOrNull (name : String) (value : Json) : Json :=
  (value.get? name).getD .null

def text? : Json → Option String
  | .string text => some text
  | _ => none

def items? : Json → Option (List Json)
  | .array items => some items
  | _ => none

def isNull : Json → Bool
  | .null => true
  | _ => false

def isArray : Json → Bool
  | .array _ => true
  | _ => false

/-- Null, the empty text and the empty array stand for an input left alone. -/
def isBlank : Json → Bool
  | .null => true
  | .string text => text.isEmpty
  | .array items => items.isEmpty
  | _ => false

def single (name : String) (value : Json) : Json :=
  .object [(name, value)]

/-- The member list of an optional member. -/
def optional (name : String) : Option Json → List (String × Json)
  | none => []
  | some value => [(name, value)]

mutual

/-- Equality of values: numbers by value within their kind, arrays in order. -/
def equal : Json → Json → Bool
  | .null, .null => true
  | .bool left, .bool right => left = right
  | .number left, .number right => left.equal right
  | .string left, .string right => left = right
  | .array left, .array right => equalItems left right
  | .object left, .object right => equalMembers left right
  | _, _ => false

def equalItems : List Json → List Json → Bool
  | [], [] => true
  | left :: lefts, right :: rights => equal left right && equalItems lefts rights
  | _, _ => false

def equalMembers : List (String × Json) → List (String × Json) → Bool
  | [], [] => true
  | (leftName, left) :: lefts, (rightName, right) :: rights =>
    leftName = rightName && equal left right && equalMembers lefts rights
  | _, _ => false

end

mutual

/-- The value that a written document stands for: of repeated names the last one counts. -/
def canonical : Json → Json
  | .array items => .array (canonicalItems items)
  | .object members => .object (Named.ofList (canonicalMembers members))
  | .null => .null
  | .bool value => .bool value
  | .number value => .number value
  | .string value => .string value

def canonicalItems : List Json → List Json
  | [] => []
  | item :: rest => canonical item :: canonicalItems rest

def canonicalMembers : List (String × Json) → List (String × Json)
  | [] => []
  | (name, value) :: rest => (name, canonical value) :: canonicalMembers rest

end

mutual

def Canonical : Json → Prop
  | .array items => CanonicalItems items
  | .object members => Named.Ascending members ∧ CanonicalMembers members
  | _ => True

def CanonicalItems : List Json → Prop
  | [] => True
  | item :: rest => Canonical item ∧ CanonicalItems rest

def CanonicalMembers : List (String × Json) → Prop
  | [] => True
  | (_, value) :: rest => Canonical value ∧ CanonicalMembers rest

end

end Json

end GridQuery
