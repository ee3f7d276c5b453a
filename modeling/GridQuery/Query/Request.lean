import GridQuery.Condition.Reader
import GridQuery.Query.OrderTerm
import GridQuery.Text.Name

/-!
Field requests: what a column asks of each row. A request follows a dotted path, or a chain of hops
with arguments of their own, or gives another request a new name.
-/

namespace GridQuery

structure Hop where
  field : String
  path : Option String
  filter : Option Condition
  orderBy : Option (List OrderTerm)
  limit : Option Nat
  offset : Option Nat
  distinctOn : Option (List String)

inductive FieldRequest where
  | field (path : String)
  | hops (chain : List Hop)
  | renamed (name : String) (request : FieldRequest)

mutual

/-- All member names inside a value, in reading order. -/
def Json.keys : Json → List String
  | .array items => Json.keysOfItems items
  | .object members => Json.keysOfMembers members
  | _ => []

def Json.keysOfItems : List Json → List String
  | [] => []
  | item :: rest => item.keys ++ Json.keysOfItems rest

def Json.keysOfMembers : List (String × Json) → List String
  | [] => []
  | (name, value) :: rest => name :: (value.keys ++ Json.keysOfMembers rest)

end

mutual

/-- The operands of all comparisons, in reading order. -/
def Condition.operands : Condition → List Json
  | .and members => Condition.operandsOfList members
  | .or members => Condition.operandsOfList members
  | .not inner => inner.operands
  | .fields entries => FieldCondition.operandsOfEntries entries

def Condition.operandsOfList : List Condition → List Json
  | [] => []
  | condition :: rest => condition.operands ++ Condition.operandsOfList rest

def FieldCondition.operands : FieldCondition → List Json
  | .comparison comparison => [comparison.operand]
  | .comparisons list => list.map Comparison.operand
  | .comparisonSet set => set.map Comparison.operand
  | .nested condition => condition.operands

def FieldCondition.operandsOfEntries : List (String × FieldCondition) → List Json
  | [] => []
  | (_, condition) :: rest => condition.operands ++ FieldCondition.operandsOfEntries rest

end

/-- A condition inside a document is written with bare keys, so the keys inside its operands must
be names. -/
def Read.inlineCondition (document : Json) : Read Condition := do
  let condition ← Read.condition document
  match (condition.operands.flatMap Json.keys).find? fun key => !Text.isName key with
  | some key => throw (.query (.operandKey key))
  | none => return condition

namespace Hop

def plain (field : String) : Hop :=
  ⟨field, none, none, none, none, none, none⟩

def toJson (hop : Hop) : Json :=
  .object (Json.optional "distinctOn" (hop.distinctOn.map Json.strings) ++
    [("field", .string hop.field)] ++
    Json.optional "limit" (hop.limit.map fun limit => .int limit) ++
    Json.optional "offset" (hop.offset.map fun offset => .int offset) ++
    Json.optional "orderBy" (hop.orderBy.map fun terms => .array (terms.map OrderTerm.toJson)) ++
    Json.optional "path" (hop.path.map .string) ++
    Json.optional "where" (hop.filter.map Condition.toJson))

structure Draft where
  field : Option String := none
  path : Option (Option String) := none
  filter : Option (Option Condition) := none
  orderBy : Option (Option (List OrderTerm)) := none
  limit : Option (Option Nat) := none
  offset : Option (Option Nat) := none
  distinctOn : Option (Option (List String)) := none

def Draft.put (draft : Draft) : String × Json → Read Draft
  | (name, value) =>
    if name = "field" then do
      return { draft with field := ← Read.fill draft.field (Read.string value) }
    else if name = "path" then do
      return { draft with path := ← Read.fill draft.path (Read.nullable Read.string value) }
    else if name = "where" then do
      return { draft with
        filter := ← Read.fill draft.filter (Read.nullable Read.inlineCondition value) }
    else if name = "orderBy" then do
      return { draft with
        orderBy := ← Read.fill draft.orderBy (Read.nullable (Read.list Read.orderTerm) value) }
    else if name = "limit" then do
      return { draft with limit := ← Read.fill draft.limit (Read.nullable Read.natural value) }
    else if name = "offset" then do
      return { draft with offset := ← Read.fill draft.offset (Read.nullable Read.natural value) }
    else if name = "distinctOn" then do
      return { draft with
        distinctOn := ← Read.fill draft.distinctOn (Read.nullable (Read.list Read.string) value) }
    else .ok draft

def ofJson (document : Json) : Read Hop := do
  let draft ← (← Read.members document).foldlM Draft.put {}
  let field ← Read.required draft.field
  return ⟨field, draft.path.join, draft.filter.join, draft.orderBy.join, draft.limit.join,
    draft.offset.join, draft.distinctOn.join⟩

end Hop

namespace FieldRequest

/-- The field of each row that the request starts from. -/
def rootKey : FieldRequest → Option String
  | .field path => some (Path.ofString path).first
  | .hops chain => chain.head?.map Hop.field
  | .renamed _ request => request.rootKey

def toJson : FieldRequest → Json
  | .field path => .object [("path", .string path), ("type", .string "field")]
  | .hops chain =>
    .object [("configs", .array (chain.map Hop.toJson)), ("type", .string "queryConfigs")]
  | .renamed name request =>
    .object [("alias", .string name), ("query", request.toJson), ("type", .string "fieldAlias")]

inductive Variant where
  | field
  | hops
  | renamed
deriving DecidableEq

def Variant.ofTag? (tag : String) : Option Variant :=
  if tag = "field" then some .field
  else if tag = "queryConfigs" then some .hops
  else if tag = "fieldAlias" then some .renamed
  else none

structure Draft where
  path : Option String := none
  hops : Option (List Hop) := none
  name : Option String := none
  request : Option FieldRequest := none

def Draft.finish (draft : Draft) : Variant → Read FieldRequest
  | .field => (Read.required draft.path).map .field
  | .hops => (Read.required draft.hops).map .hops
  | .renamed => do
    let name ← Read.required draft.name
    let request ← Read.required draft.request
    return .renamed name request

mutual

def ofJson : Json → Read FieldRequest
  | .object members => do
    let tag ← Read.tag members
    let variant ← Read.required (Variant.ofTag? tag)
    let draft ← ofMembers variant {} members
    draft.finish variant
  | _ => .error .malformed
termination_by structural document => document

def ofMembers (variant : Variant) (draft : Draft) : List (String × Json) → Read Draft
  | [] => .ok draft
  | (name, value) :: rest => do
    let next ←
      match variant with
      | .field =>
        if name = "path" then do
          pure { draft with path := ← Read.fill draft.path (Read.string value) }
        else pure draft
      | .hops =>
        if name = "configs" then do
          pure { draft with hops := ← Read.fill draft.hops (Read.list Hop.ofJson value) }
        else pure draft
      | .renamed =>
        if name = "alias" then do
          pure { draft with name := ← Read.fill draft.name (Read.string value) }
        else if name = "query" then do
          pure { draft with request := ← Read.fill draft.request (ofJson value) }
        else pure draft
    ofMembers variant next rest

end

end FieldRequest

/-- A column of the grid and what it asks of each row. -/
structure Column where
  id : String
  header : Option String
  requests : List FieldRequest

namespace Column

def toJson (column : Column) : Json :=
  .object (("data", .array (column.requests.map FieldRequest.toJson)) ::
    Json.optional "header" (column.header.map .string) ++ [("id", .string column.id)])

structure Draft where
  id : Option String := none
  header : Option (Option String) := none
  requests : Option (List FieldRequest) := none

def Draft.put (draft : Draft) : String × Json → Read Draft
  | (name, value) =>
    if name = "id" then do
      return { draft with id := ← Read.fill draft.id (Read.string value) }
    else if name = "header" then do
      return { draft with header := ← Read.fill draft.header (Read.nullable Read.string value) }
    else if name = "data" then do
      return { draft with
        requests := ← Read.fill draft.requests (Read.list FieldRequest.ofJson value) }
    else .ok draft

def ofJson (document : Json) : Read Column := do
  let draft ← (← Read.members document).foldlM Draft.put {}
  let id ← Read.required draft.id
  return ⟨id, draft.header.join, draft.requests.getD []⟩

end Column

end GridQuery
