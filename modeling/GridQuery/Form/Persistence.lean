import GridQuery.Form.Date
import GridQuery.Form.Fold
import GridQuery.Filter.Schema

/-!
Saving and loading form states. The values of date leaves are written in their canonical form; a
saved state with an unreadable date is refused, while such a value is saved as it is.
-/

namespace GridQuery

/-- The paths of the leaves whose controls collect dates. -/
def FilterSchema.datePaths (schema : FilterSchema) : List String :=
  schema.filters.flatMap fun filter =>
    (filter.expression.leaves.filter fun leaf => leaf.control.isDate).flatMap fun leaf =>
      leaf.target.paths

inductive DateMode where
  | lenient
  | strict
deriving DecidableEq

mutual

/-- Blank values stay, the members of arrays are normalized one by one. -/
def Json.normalizeDates (mode : DateMode) (field : String) : Json → Except ViewError Json
  | .array items => (normalizeDateItems mode field items).map .array
  | .null => .ok .null
  | value =>
    if value.isBlank then .ok value
    else do
      match ← canonicalDate? value with
      | some date => return date
      | none => if mode = .strict then throw (.invalidDate field value) else return value

def Json.normalizeDateItems (mode : DateMode) (field : String) :
    List Json → Except ViewError (List Json)
  | [] => .ok []
  | item :: rest => do
    let first ← normalizeDates mode field item
    let others ← normalizeDateItems mode field rest
    return first :: others

end

/-- A leaf holds dates if one of its paths is a date path, whatever its own control. In the pair of
an operator choice only the operand is a date. -/
def normalizeLeaf (mode : DateMode) (datePaths : List String) (leaf : FilterLeaf) (value : Json) :
    Except ViewError FormState :=
  match leaf.target.paths.find? fun path => datePaths.contains path with
  | none => .ok (.leaf value)
  | some field =>
    match leaf.control, value with
    | .operatorChoice .., .object members => do
      let operand ← Json.normalizeDates mode field (Json.getOrNull "value" (.object members))
      return .leaf (.object [("operator", Json.getOrNull "operator" (.object members)),
        ("value", operand)])
    | _, value => do
      return .leaf (← Json.normalizeDates mode field value)

def dateVisitor (mode : DateMode) (datePaths : List String) :
    FormVisitor (Except ViewError) FormState where
  leaf := normalizeLeaf mode datePaths
  and _ _ children := .ok (.and children)
  or _ _ children := .ok (.or children)
  not _ _ child := .ok (.not child)

namespace FormStates

/-- Normalizes the states whose filters are known; the others stay as they are. -/
def normalize (mode : DateMode) (schema : FilterSchema) : FormStates → Except ViewError FormStates
  | [] => .ok []
  | (id, state) :: rest => do
    let first ←
      match schema.filter? id with
      | some filter => state.fold (dateVisitor mode schema.datePaths) filter.expression
      | none => pure state
    let others ← normalize mode schema rest
    return (id, first) :: others

theorem normalize_unknown {mode : DateMode} {schema : FilterSchema} {id : String}
    {state : FormState} {rest : FormStates} (unknown : schema.filter? id = none) :
    normalize mode schema ((id, state) :: rest) = do
      let others ← normalize mode schema rest
      return (id, state) :: others := by
  rw [normalize, unknown]
  rfl

theorem normalize_known {mode : DateMode} {schema : FilterSchema} {id : String}
    {state : FormState} {rest : FormStates} {filter : Filter}
    (known : schema.filter? id = some filter) :
    normalize mode schema ((id, state) :: rest) = do
      let first ← state.fold (dateVisitor mode schema.datePaths) filter.expression
      let others ← normalize mode schema rest
      return (id, first) :: others := by
  rw [normalize, known]

def save (schema : FilterSchema) (states : FormStates) : Except ViewError Json := do
  return (← normalize .lenient schema states).toJson

def load (schema : FilterSchema) (value : Json) : Except ViewError FormStates := do
  let states ← (ofJson value).mapError .unreadable
  normalize .strict schema states

end FormStates

end GridQuery
