import GridQuery.Form.Fold
import GridQuery.Form.Initial

/-!
Suggested values for a form. A suggestion is loosely shaped JSON by filter id; what can be brought
into the shape of its filter replaces the state there, anything else leaves the state alone.
-/

namespace GridQuery

def suggestedKind? (suggestion : Json) : Option String := do
  (← suggestion.get? "type").text?

def suggestedValue (suggestion : Json) : Json :=
  suggestion.getOrNull "value"

namespace FilterLeaf

/-- A bare operand is paired with the first operator; a member test takes a list. -/
def acceptValue (leaf : FilterLeaf) (value : Json) : Json :=
  match leaf.control with
  | .operatorChoice .. =>
    match value.get? "operator" with
    | some _ => value
    | none => operatorPair (leaf.control.firstOperator.getD .null) value
  | _ =>
    if leaf.operator.isMembership && !value.isArray && !value.isBlank then .array [value]
    else value

/-- A negated value fits a leaf that negates by itself. -/
def acceptNegated? (leaf : FilterLeaf) (value : Json) : Option Json :=
  match leaf.control with
  | .operatorChoice operators .. =>
    if operators.any fun choice => choice.value.equal (.string "_neq") then
      some (operatorPair (.string "_neq") value)
    else none
  | _ =>
    match leaf.operator with
    | .notEquals => some value
    | .notIn => some (if value.isArray then value else .array [value])
    | _ => none

/-- The values of suggested alternatives, lists opened and blanks left out. -/
def alternatives? : List Json → Option (List Json)
  | [] => some []
  | suggestion :: rest =>
    if suggestedKind? suggestion = some "leaf" then do
      let values :=
        match suggestedValue suggestion with
        | .array items => items
        | value => if value.isBlank then [] else [value]
      return values ++ (← alternatives? rest)
    else none

def acceptAlternatives? (leaf : FilterLeaf) (suggestion : Json) : Option Json := do
  if !leaf.operator.isMembership then none
  return .array (← alternatives? (← (← suggestion.get? "children").items?))

def acceptLeaf? (leaf : FilterLeaf) (suggestion : Json) : Option Json := do
  let kind ← suggestedKind? suggestion
  if kind = "leaf" then some (leaf.acceptValue (suggestedValue suggestion))
  else if kind = "not" then do
    let inner ← suggestion.get? "child"
    if suggestedKind? inner = some "leaf" then leaf.acceptNegated? (suggestedValue inner) else none
  else if kind = "or" then leaf.acceptAlternatives? suggestion
  else none

end FilterLeaf

namespace FilterExpr

mutual

/-- The state that a suggestion comes to for this expression. -/
def accept? : FilterExpr → Json → Option FormState
  | .leaf contents, suggestion => (contents.acceptLeaf? suggestion).map .leaf
  | .and filters, suggestion =>
    if suggestedKind? suggestion = some "and" then do
      return .and (← acceptList? filters (← (← suggestion.get? "children").items?))
    else none
  | .or filters, suggestion =>
    if suggestedKind? suggestion = some "or" then do
      return .or (← acceptList? filters (← (← suggestion.get? "children").items?))
    else none
  | .not filter, suggestion =>
    if suggestedKind? suggestion = some "not" then do
      return .not (← accept? filter (← suggestion.get? "child"))
    else none
termination_by structural expression => expression

def acceptList? : List FilterExpr → List Json → Option (List FormState)
  | [], [] => some []
  | filter :: filters, suggestion :: suggestions => do
    let first ← accept? filter suggestion
    let others ← acceptList? filters suggestions
    return first :: others
  | _, _ => none

end

end FilterExpr

namespace FormStates

/-- Puts one suggestion into the states if it is accepted. -/
def applyOne (schema : FilterSchema) (states : FormStates) (suggestion : String × Json) :
    FormStates :=
  match schema.filter? suggestion.1 with
  | none => states
  | some filter =>
    match filter.expression.accept? suggestion.2 with
    | none => states
    | some state =>
      match state.checkShape filter.expression with
      | .ok _ => Named.insert suggestion.1 state states
      | .error _ => states

def merge (schema : FilterSchema) (states : FormStates) : Json → FormStates
  | .object suggestions => suggestions.foldl (applyOne schema) states
  | _ => states

end FormStates

end GridQuery
