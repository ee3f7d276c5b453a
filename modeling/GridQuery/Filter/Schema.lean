import GridQuery.Filter.Expr

/-!
The filters that a view offers. Filters are known by their ids; of several filters with one id the
first is the one that counts.
-/

namespace GridQuery

structure FilterGroup where
  name : String
  label : String

structure Filter where
  id : String
  label : String
  expression : FilterExpr
  group : Option String
  aiGenerated : Bool

structure FilterSchema where
  groups : List FilterGroup
  filters : List Filter

namespace FilterGroup

def toJson (group : FilterGroup) : Json :=
  .object [("label", .string group.label), ("name", .string group.name)]

structure Draft where
  name : Option String := none
  label : Option String := none

def Draft.put (draft : Draft) : String × Json → Read Draft
  | (name, value) =>
    if name = "name" then do
      return { draft with name := ← Read.fill draft.name (Read.string value) }
    else if name = "label" then do
      return { draft with label := ← Read.fill draft.label (Read.string value) }
    else .ok draft

def ofJson (document : Json) : Read FilterGroup := do
  let draft ← (← Read.members document).foldlM Draft.put {}
  return ⟨← Read.required draft.name, ← Read.required draft.label⟩

end FilterGroup

namespace Filter

def toJson (filter : Filter) : Json :=
  .object ([("aiGenerated", .bool filter.aiGenerated), ("expression", filter.expression.toJson)] ++
    Json.optional "group" (filter.group.map .string) ++
    [("id", .string filter.id), ("label", .string filter.label)])

structure Draft where
  id : Option String := none
  label : Option String := none
  expression : Option FilterExpr := none
  group : Option (Option String) := none
  aiGenerated : Option Bool := none

def Draft.put (draft : Draft) : String × Json → Read Draft
  | (name, value) =>
    if name = "id" then do
      return { draft with id := ← Read.fill draft.id (Read.string value) }
    else if name = "label" then do
      return { draft with label := ← Read.fill draft.label (Read.string value) }
    else if name = "expression" then do
      return { draft with expression := ← Read.fill draft.expression (FilterExpr.ofJson value) }
    else if name = "group" then do
      return { draft with group := ← Read.fill draft.group (Read.nullable Read.string value) }
    else if name = "aiGenerated" then do
      return { draft with aiGenerated := ← Read.fill draft.aiGenerated (Read.bool value) }
    else .ok draft

def ofJson (document : Json) : Read Filter := do
  let draft ← (← Read.members document).foldlM Draft.put {}
  let id ← Read.required draft.id
  let label ← Read.required draft.label
  let expression ← Read.required draft.expression
  return ⟨id, label, expression, draft.group.join, draft.aiGenerated.getD false⟩

end Filter

namespace FilterSchema

def empty : FilterSchema :=
  ⟨[], []⟩

def filter? (schema : FilterSchema) (id : String) : Option Filter :=
  schema.filters.find? fun filter => filter.id = id

def toJson (schema : FilterSchema) : Json :=
  .object [("filters", .array (schema.filters.map Filter.toJson)),
    ("groups", .array (schema.groups.map FilterGroup.toJson))]

structure Draft where
  groups : Option (List FilterGroup) := none
  filters : Option (List Filter) := none

def Draft.put (draft : Draft) : String × Json → Read Draft
  | (name, value) =>
    if name = "groups" then do
      return { draft with groups := ← Read.fill draft.groups (Read.list FilterGroup.ofJson value) }
    else if name = "filters" then do
      return { draft with filters := ← Read.fill draft.filters (Read.list Filter.ofJson value) }
    else .ok draft

def ofJson (document : Json) : Read FilterSchema := do
  let draft ← (← Read.members document).foldlM Draft.put {}
  return ⟨draft.groups.getD [], draft.filters.getD []⟩

end FilterSchema

end GridQuery
