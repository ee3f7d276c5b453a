import GridQuery.Form.Compile
import GridQuery.View

/-!
The variables of a page's query: the conditions of the form, the condition that starts after the
cursor, the page size and the ordering.
-/

namespace GridQuery

structure QueryVariables where
  conditions : Condition
  paginationCondition : Condition
  rowLimit : Nat
  orderBy : List OrderTerm

namespace QueryVariables

def toJson (values : QueryVariables) : Json :=
  .object [("conditions", values.conditions.toJson),
    ("orderBy", .array (values.orderBy.map OrderTerm.toJson)),
    ("paginationCondition", values.paginationCondition.toJson),
    ("rowLimit", .int values.rowLimit)]

structure Draft where
  conditions : Option Condition := none
  paginationCondition : Option Condition := none
  rowLimit : Option Nat := none
  orderBy : Option (List OrderTerm) := none

def Draft.put (draft : Draft) : String × Json → Read Draft
  | (name, value) =>
    if name = "conditions" then do
      return { draft with conditions := ← Read.fill draft.conditions (Read.condition value) }
    else if name = "paginationCondition" then do
      return { draft with
        paginationCondition := ← Read.fill draft.paginationCondition (Read.condition value) }
    else if name = "rowLimit" then do
      return { draft with rowLimit := ← Read.fill draft.rowLimit (Read.natural value) }
    else if name = "orderBy" then do
      return { draft with
        orderBy := ← Read.fill draft.orderBy (Read.list Read.orderTerm value) }
    else .ok draft

def ofJson (document : Json) : Read QueryVariables := do
  let draft ← (← Read.members document).foldlM Draft.put {}
  let conditions ← Read.required draft.conditions
  let paginationCondition ← Read.required draft.paginationCondition
  let rowLimit ← Read.required draft.rowLimit
  let orderBy ← Read.required draft.orderBy
  return ⟨conditions, paginationCondition, rowLimit, orderBy⟩

end QueryVariables

/-- The rows strictly after the cursor in descending order of the key; all rows without a cursor. -/
def Condition.after (key : String) (cursor : Option Json) : Condition :=
  match cursor with
  | none => .empty
  | some .null => .empty
  | some value => .nest key (.comparison ⟨.lt, value⟩)

namespace View

/-- Static conditions always make a conjunction, also where the form adds no condition. -/
def conditions (view : View) (user : Condition) : Condition :=
  if view.staticConditions.isEmpty then user else .and (user :: view.staticConditions)

def queryVariables (view : View) (states : FormStates) (rowLimit : Nat) (cursor : Option Json) :
    Except ViewError QueryVariables := do
  let user ← states.condition view.schema
  return ⟨view.conditions user, .after view.paginationKey cursor, rowLimit,
    ⟨view.paginationKey, .desc⟩ :: view.staticOrder⟩

end View

end GridQuery
