import GridQuery.Form.Fold
import GridQuery.Filter.Schema

/-!
Conditions from form states. A leaf with a blank value adds nothing, and a combination of nothing
is nothing, so an untouched form puts no condition on the rows.
-/

namespace GridQuery

/-- The operator and operand of an operator choice, if one is chosen and there is an operand. -/
def chosenComparison? (value : Json) : Option Comparison :=
  match value.get? "operator" with
  | some (.string operator) =>
    let operand := value.getOrNull "value"
    if operator.isEmpty || operand.isBlank then none else some ⟨.ofText operator, operand⟩
  | _ => none

namespace FilterLeaf

/-- What the leaf compares its target with. -/
def comparison? (leaf : FilterLeaf) (value : Json) : Option Comparison :=
  match leaf.control with
  | .operatorChoice .. => chosenComparison? value
  | _ => if value.isBlank then none else some ⟨leaf.operator.key, value⟩

/-- What the hook makes of the value; without a hook nothing changes. -/
def outcome (leaf : FilterLeaf) (value : Json) : Outcome :=
  match leaf.hook with
  | some hook => hook value
  | none => .override none none

def condition? (leaf : FilterLeaf) (value : Json) : Option Condition :=
  match leaf.outcome value with
  | .condition condition => some condition
  | .override target replacement =>
    (leaf.comparison? (replacement.getD value)).map fun comparison =>
      (target.getD leaf.target).constrain (.comparison comparison)

end FilterLeaf

def combine? (combine : List Condition → Condition) (children : List (Option Condition)) :
    Option Condition :=
  match children.filterMap id with
  | [] => none
  | present => some (combine present)

def conditionVisitor : FormVisitor (Except ViewError) (Option Condition) where
  leaf contents value := .ok (contents.condition? value)
  and _ _ children := .ok (combine? .and children)
  or _ _ children := .ok (combine? .or children)
  not _ _ child := .ok (child.map .not)

def FormState.condition? (expression : FilterExpr) (state : FormState) :
    Except ViewError (Option Condition) :=
  state.fold conditionVisitor expression

namespace FormStates

/-- The conditions of the states whose filters are known, in order of the ids. -/
def activeConditions (schema : FilterSchema) : FormStates → Except ViewError (List Condition)
  | [] => .ok []
  | (id, state) :: rest => do
    let first ←
      match schema.filter? id with
      | some filter => state.condition? filter.expression
      | none => pure none
    let others ← activeConditions schema rest
    return first.toList ++ others

theorem activeConditions_unknown {schema : FilterSchema} {id : String} {state : FormState}
    {rest : FormStates} (unknown : schema.filter? id = none) :
    activeConditions schema ((id, state) :: rest) = activeConditions schema rest := by
  rw [activeConditions, unknown]
  cases activeConditions schema rest <;> rfl

theorem activeConditions_known {schema : FilterSchema} {id : String} {state : FormState}
    {rest : FormStates} {filter : Filter} (known : schema.filter? id = some filter) :
    activeConditions schema ((id, state) :: rest) = do
      let first ← state.condition? filter.expression
      let others ← activeConditions schema rest
      return first.toList ++ others := by
  rw [activeConditions, known]

def condition (schema : FilterSchema) (states : FormStates) : Except ViewError Condition := do
  return .all (← states.activeConditions schema)

end FormStates

end GridQuery
