import GridQuery.Filter.Registry
import GridQuery.Query.Document

/-!
Views: a collection with its columns, its filters and the key by which its pages are cut.
-/

namespace GridQuery

structure View where
  title : Option String
  collection : String
  columns : List Column
  schema : FilterSchema
  conditionType : String
  orderType : String
  paginationKey : String
  staticConditions : List Condition
  staticOrder : List OrderTerm

namespace View

def column? (view : View) (id : String) : Option Column :=
  view.columns.find? fun column => column.id = id

/-- A list member that is left out when it is empty. -/
def nonEmpty (name : String) (items : List Json) : List (String × Json) :=
  if items.isEmpty then [] else [(name, .array items)]

def toJson (view : View) : Json :=
  .object ([("boolExpType", .string view.conditionType),
    ("collectionName", .string view.collection),
    ("columnDefinitions", .array (view.columns.map Column.toJson)),
    ("filterSchema", view.schema.toJson),
    ("orderByType", .string view.orderType),
    ("paginationKey", .string view.paginationKey)] ++
    nonEmpty "staticConditions" (view.staticConditions.map Condition.toJson) ++
    nonEmpty "staticOrdering" (view.staticOrder.map OrderTerm.toJson) ++
    Json.optional "title" (view.title.map .string))

structure Draft where
  title : Option (Option String) := none
  collection : Option String := none
  columns : Option (List Column) := none
  schema : Option FilterSchema := none
  conditionType : Option String := none
  orderType : Option String := none
  paginationKey : Option String := none
  staticConditions : Option (List Condition) := none
  staticOrder : Option (List OrderTerm) := none

def Draft.put (draft : Draft) : String × Json → Read Draft
  | (name, value) =>
    if name = "title" then do
      return { draft with title := ← Read.fill draft.title (Read.nullable Read.string value) }
    else if name = "collectionName" then do
      return { draft with collection := ← Read.fill draft.collection (Read.string value) }
    else if name = "columnDefinitions" then do
      return { draft with columns := ← Read.fill draft.columns (Read.list Column.ofJson value) }
    else if name = "filterSchema" then do
      return { draft with schema := ← Read.fill draft.schema (FilterSchema.ofJson value) }
    else if name = "boolExpType" then do
      return { draft with conditionType := ← Read.fill draft.conditionType (Read.string value) }
    else if name = "orderByType" then do
      return { draft with orderType := ← Read.fill draft.orderType (Read.string value) }
    else if name = "paginationKey" then do
      return { draft with paginationKey := ← Read.fill draft.paginationKey (Read.string value) }
    else if name = "staticConditions" then do
      return { draft with
        staticConditions := ← Read.fill draft.staticConditions (Read.list Read.condition value) }
    else if name = "staticOrdering" then do
      return { draft with
        staticOrder := ← Read.fill draft.staticOrder (Read.list Read.orderTerm value) }
    else .ok draft

def Draft.finish (draft : Draft) : Read View := do
  let collection ← Read.required draft.collection
  let columns ← Read.required draft.columns
  let conditionType ← Read.required draft.conditionType
  let orderType ← Read.required draft.orderType
  let paginationKey ← Read.required draft.paginationKey
  return ⟨draft.title.join, collection, columns, draft.schema.getD .empty, conditionType,
    orderType, paginationKey, draft.staticConditions.getD [], draft.staticOrder.getD []⟩

def read (document : Json) : Read View := do
  let draft ← (← Read.members document).foldlM Draft.put {}
  draft.finish

/-- A view names its collection, and every segment of its pagination key. -/
def validate (view : View) : Except ViewError View :=
  if view.collection.isEmpty then .error (.invalid .emptyCollection)
  else if (Path.ofString view.paginationKey).segments.any String.isEmpty then
    .error (.invalid .paginationKey)
  else .ok view

def ofJson (document : Json) : Except ViewError View := do
  (← (read document).mapError .unreadable).validate

def resolve (registry : Registry) (view : View) : Except ViewError View := do
  return { view with schema := ← registry.resolve view.schema }

/-- The query for the rows of a view. Filter and cursor are variables, so the text is the same for
every page. -/
def document (view : View) : Document where
  operation := "ViewQuery"
  definitions := [⟨"conditions", view.conditionType ++ "!"⟩,
    ⟨"paginationCondition", view.conditionType ++ "!"⟩, ⟨"rowLimit", "Int"⟩,
    ⟨"orderBy", view.orderType⟩]
  field := view.collection
  arguments := [
    ⟨"where", .entry "_and" (.list [.reference "conditions", .reference "paginationCondition"])⟩,
    ⟨"limit", .reference "rowLimit"⟩, ⟨"orderBy", .reference "orderBy"⟩]
  selections := Selection.ensurePath (Selection.ofColumns view.columns) view.paginationKey

def query (view : View) : String :=
  view.document.text

end View

end GridQuery
