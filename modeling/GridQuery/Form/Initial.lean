import GridQuery.Filter.Schema
import GridQuery.Form.State

/-!
The state of a form before it is touched, with the declared initial values or without them.
-/

namespace GridQuery

inductive InitialMode where
  | declared
  | empty
deriving DecidableEq

/-- The value of an operator choice. -/
def operatorPair (operator value : Json) : Json :=
  .object [("operator", operator), ("value", value)]

namespace Control

/-- A declared pair is taken as it is, a declared operand is paired with the first operator. -/
def initialPair (operator : Json) (initial : Json) : Json :=
  match initial.get? "operator" with
  | some _ => initial
  | none => operatorPair operator initial

def startValue (mode : InitialMode) (control : Control) : Json :=
  match control, mode with
  | .operatorChoice .., .empty =>
    operatorPair (control.firstOperator.getD .null) (.string "")
  | .operatorChoice _ _ (some initial), .declared =>
    initialPair (control.firstOperator.getD .null) initial
  | .operatorChoice _ operand none, .declared =>
    operatorPair (control.firstOperator.getD .null) (operand.initial.getD (.string ""))
  | control, .empty => control.emptyValue
  | control, .declared => control.initial.getD control.emptyValue

end Control

namespace FormState

mutual

def start (mode : InitialMode) : FilterExpr → FormState
  | .leaf contents => .leaf (contents.control.startValue mode)
  | .and filters => .and (startList mode filters)
  | .or filters => .or (startList mode filters)
  | .not filter => .not (start mode filter)

def startList (mode : InitialMode) : List FilterExpr → List FormState
  | [] => []
  | filter :: rest => start mode filter :: startList mode rest

end

end FormState

/-- The states of all filters. Of filters with one id the last one gives the state. -/
def FormStates.start (mode : InitialMode) (schema : FilterSchema) : FormStates :=
  Named.ofList (schema.filters.map fun filter => (filter.id, .start mode filter.expression))

end GridQuery
