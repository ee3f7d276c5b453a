import GridQuery.Query.Selection

/-!
Argument values of a query document: references to variables, enum names, JSON scalars, lists and
objects with bare keys.
-/

namespace GridQuery

inductive InputValue where
  | reference (name : String)
  | enumName (name : String)
  | scalar (value : Json)
  | list (items : List InputValue)
  | object (entries : List (String × InputValue))

structure Argument where
  name : String
  value : InputValue

namespace InputValue

instance : Inhabited InputValue := ⟨.scalar .null⟩

def entry (key : String) (value : InputValue) : InputValue :=
  .object [(key, value)]

def ofComparison (comparison : Comparison) : String × InputValue :=
  (comparison.key.text, .scalar comparison.operand)

mutual

def ofCondition : Condition → InputValue
  | .and members => entry "_and" (.list (ofConditions members))
  | .or members => entry "_or" (.list (ofConditions members))
  | .not inner => entry "_not" (ofCondition inner)
  | .fields entries => .object (ofEntries entries)

def ofConditions : List Condition → List InputValue
  | [] => []
  | condition :: rest => ofCondition condition :: ofConditions rest

/-- Both forms of several comparisons are written as one object. -/
def ofFieldCondition : FieldCondition → InputValue
  | .comparison comparison => .object [ofComparison comparison]
  | .comparisons several => .object (several.map ofComparison)
  | .comparisonSet set => .object (set.map ofComparison)
  | .nested condition => ofCondition condition

def ofEntries : List (String × FieldCondition) → List (String × InputValue)
  | [] => []
  | (name, condition) :: rest => (name, ofFieldCondition condition) :: ofEntries rest

end

def nestSegments (value : InputValue) : String → List String → InputValue
  | last, [] => entry last value
  | first, second :: rest => entry first (nestSegments value second rest)

def ofOrderTerm (term : OrderTerm) : InputValue :=
  let path := Path.ofString term.field
  nestSegments (.enumName term.direction.text) path.first path.rest

mutual

/-- A JSON value with bare keys. -/
def scalarChars : Json → List Char
  | .array items => '[' :: Json.separated [',', ' '] (scalarItems items) ++ [']']
  | .object members => '\x7b' :: Json.separated [',', ' '] (scalarMembers members) ++ ['\x7d']
  | .null => Json.compactChars .null
  | .bool value => Json.compactChars (.bool value)
  | .number value => Json.compactChars (.number value)
  | .string value => Json.compactChars (.string value)

def scalarItems : List Json → List (List Char)
  | [] => []
  | item :: rest => scalarChars item :: scalarItems rest

def scalarMembers : List (String × Json) → List (List Char)
  | [] => []
  | (name, value) :: rest =>
    (name.toList ++ ':' :: ' ' :: scalarChars value) :: scalarMembers rest

end

mutual

def chars : InputValue → List Char
  | .reference name => '$' :: name.toList
  | .enumName name => name.toList
  | .scalar value => scalarChars value
  | .list items => '[' :: Json.separated [',', ' '] (itemChars items) ++ [']']
  | .object entries => '\x7b' :: Json.separated [',', ' '] (entryChars entries) ++ ['\x7d']

def itemChars : List InputValue → List (List Char)
  | [] => []
  | item :: rest => chars item :: itemChars rest

def entryChars : List (String × InputValue) → List (List Char)
  | [] => []
  | (key, value) :: rest => (key.toList ++ ':' :: ' ' :: chars value) :: entryChars rest

end

def text (value : InputValue) : String :=
  String.ofList value.chars

end InputValue

namespace Selection

def argument? (name : String) (value : Option InputValue) : List Argument :=
  match value with
  | some value => [⟨name, value⟩]
  | none => []

def number (value : Nat) : InputValue :=
  .scalar (.int value)

/-- The arguments that are set, in the order in which they are written. -/
def arguments (item : Selection) : List Argument :=
  argument? "where" (item.filter.map .ofCondition) ++
    argument? "orderBy" (item.orderBy.map fun terms => .list (terms.map .ofOrderTerm)) ++
    argument? "distinctOn" (item.distinctOn.map fun names => .list (names.map .enumName)) ++
    argument? "limit" (item.limit.map number) ++
    argument? "offset" (item.offset.map number) ++
    argument? "path" (item.path.map fun path => .scalar (.string path))

end Selection

end GridQuery
