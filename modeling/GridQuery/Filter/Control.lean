import GridQuery.Json.Reading

/-!
Input controls: what an input of a filter form collects, and what it holds before it is touched.
-/

namespace GridQuery

structure Choice where
  label : String
  value : Json

namespace Choice

def toJson (choice : Choice) : Json :=
  .object [("label", .string choice.label), ("value", choice.value)]

structure Draft where
  label : Option String := none
  value : Option Json := none

def Draft.put (draft : Draft) : String × Json → Read Draft
  | (name, value) =>
    if name = "label" then do
      return { draft with label := ← Read.fill draft.label (Read.string value) }
    else if name = "value" then do
      return { draft with value := ← Read.fill draft.value (Read.value value) }
    else .ok draft

def ofJson (document : Json) : Read Choice := do
  let draft ← (← Read.members document).foldlM Draft.put {}
  return ⟨← Read.required draft.label, ← Read.required draft.value⟩

end Choice

/-- Every control may declare the value that it starts with. The value of an `operatorChoice` is an
object with the chosen operator and the operand, which the inner control collects. -/
inductive Control where
  | text (initial : Option Json) (placeholder : Option String)
  | number (initial : Option Json) (min max : Option Binary64)
  | date (initial : Option Json)
  | dropdown (items : List Choice) (initial : Option Json)
  | multiselect (items : List Choice) (initial : Option Json)
  | operatorChoice (operators : List Choice) (operand : Control) (initial : Option Json)
  | autocomplete (source : Option String) (initial : Option Json)
  | custom (component : String) (props : Json) (initial : Option Json)

namespace Control

def initial : Control → Option Json
  | .text initial _ => initial
  | .number initial _ _ => initial
  | .date initial => initial
  | .dropdown _ initial => initial
  | .multiselect _ initial => initial
  | .operatorChoice _ _ initial => initial
  | .autocomplete _ initial => initial
  | .custom _ _ initial => initial

def withInitial (value : Json) : Control → Control
  | .text _ placeholder => .text (some value) placeholder
  | .number _ min max => .number (some value) min max
  | .date _ => .date (some value)
  | .dropdown items _ => .dropdown items (some value)
  | .multiselect items _ => .multiselect items (some value)
  | .operatorChoice operators operand _ => .operatorChoice operators operand (some value)
  | .autocomplete source _ => .autocomplete source (some value)
  | .custom component props _ => .custom component props (some value)

/-- What the control holds when it is cleared. -/
def emptyValue : Control → Json
  | .multiselect _ _ => .array []
  | .custom _ _ _ => .null
  | _ => .string ""

def operators? : Control → Option (List Choice)
  | .operatorChoice operators _ _ => some operators
  | _ => none

def firstOperator (control : Control) : Option Json := do
  let choice ← (← control.operators?).head?
  return choice.value

/-- Whether the control, or the one inside it, collects a date. -/
def isDate : Control → Bool
  | .date _ => true
  | .operatorChoice _ operand _ => operand.isDate
  | _ => false

def itemsMember (name : String) (items : List Choice) : String × Json :=
  (name, .array (items.map Choice.toJson))

def bound (value : Binary64) : Json :=
  .number (.double value)

def toJson : Control → Json
  | .text initial placeholder =>
    .object (Json.optional "initialValue" initial ++
      Json.optional "placeholder" (placeholder.map .string) ++ [("type", .string "text")])
  | .number initial min max =>
    .object (Json.optional "initialValue" initial ++ Json.optional "max" (max.map bound) ++
      Json.optional "min" (min.map bound) ++ [("type", .string "number")])
  | .date initial =>
    .object (Json.optional "initialValue" initial ++ [("type", .string "date")])
  | .dropdown items initial =>
    .object (Json.optional "initialValue" initial ++
      [itemsMember "items" items, ("type", .string "dropdown")])
  | .multiselect items initial =>
    .object (Json.optional "initialValue" initial ++
      [itemsMember "items" items, ("type", .string "multiselect")])
  | .operatorChoice operators operand initial =>
    .object (Json.optional "initialValue" initial ++
      [itemsMember "operators" operators, ("type", .string "customOperator"),
        ("valueControl", operand.toJson)])
  | .autocomplete source initial =>
    .object (Json.optional "initialValue" initial ++
      Json.optional "source" (source.map .string) ++ [("type", .string "autocomplete")])
  | .custom component props initial =>
    .object (("component", .string component) :: Json.optional "initialValue" initial ++
      [("props", props), ("type", .string "custom")])

inductive Variant where
  | text
  | number
  | date
  | dropdown
  | multiselect
  | operatorChoice
  | autocomplete
  | custom
deriving DecidableEq

def Variant.ofTag? (tag : String) : Option Variant :=
  if tag = "text" then some .text
  else if tag = "number" then some .number
  else if tag = "date" then some .date
  else if tag = "dropdown" then some .dropdown
  else if tag = "multiselect" then some .multiselect
  else if tag = "customOperator" then some .operatorChoice
  else if tag = "autocomplete" then some .autocomplete
  else if tag = "custom" then some .custom
  else none

/-- The members known to any variant. -/
structure Draft where
  initial : Option (Option Json) := none
  placeholder : Option (Option String) := none
  min : Option (Option Binary64) := none
  max : Option (Option Binary64) := none
  items : Option (List Choice) := none
  operators : Option (List Choice) := none
  operand : Option Control := none
  source : Option (Option String) := none
  component : Option String := none
  props : Option Json := none

/-- Reads a member other than the inner control. -/
def Draft.put (variant : Variant) (draft : Draft) (name : String) (value : Json) : Read Draft :=
  if name = "initialValue" then do
    return { draft with initial := ← Read.fill draft.initial (Read.nullable Read.value value) }
  else
    match variant with
    | .text =>
      if name = "placeholder" then do
        return { draft with
          placeholder := ← Read.fill draft.placeholder (Read.nullable Read.string value) }
      else .ok draft
    | .number =>
      if name = "min" then do
        return { draft with min := ← Read.fill draft.min (Read.nullable Read.double value) }
      else if name = "max" then do
        return { draft with max := ← Read.fill draft.max (Read.nullable Read.double value) }
      else .ok draft
    | .date => .ok draft
    | .dropdown | .multiselect =>
      if name = "items" then do
        return { draft with items := ← Read.fill draft.items (Read.list Choice.ofJson value) }
      else .ok draft
    | .operatorChoice =>
      if name = "operators" then do
        return { draft with
          operators := ← Read.fill draft.operators (Read.list Choice.ofJson value) }
      else .ok draft
    | .autocomplete =>
      if name = "source" then do
        return { draft with source := ← Read.fill draft.source (Read.nullable Read.string value) }
      else .ok draft
    | .custom =>
      if name = "component" then do
        return { draft with component := ← Read.fill draft.component (Read.string value) }
      else if name = "props" then do
        return { draft with props := ← Read.fill draft.props (Read.value value) }
      else .ok draft

def Draft.finish (draft : Draft) (variant : Variant) : Read Control := do
  let initial := draft.initial.join
  match variant with
  | .text => return .text initial draft.placeholder.join
  | .number => return .number initial draft.min.join draft.max.join
  | .date => return .date initial
  | .dropdown => return .dropdown (draft.items.getD []) initial
  | .multiselect => return .multiselect (draft.items.getD []) initial
  | .operatorChoice =>
    return .operatorChoice (← Read.required draft.operators) (← Read.required draft.operand) initial
  | .autocomplete => return .autocomplete draft.source.join initial
  | .custom => return .custom (← Read.required draft.component) (draft.props.getD .null) initial

mutual

def ofJson : Json → Read Control
  | .object members => do
    let tag ← Read.tag members
    let variant ← Read.required (Variant.ofTag? tag)
    let draft ← ofMembers variant {} members
    draft.finish variant
  | _ => .error .malformed
termination_by structural document => document

def ofMembers (variant : Variant) (draft : Draft) : List (String × Json) → Read Draft
  | [] => .ok draft
  | (name, value) :: rest => do
    let next ←
      if variant = .operatorChoice ∧ name = "valueControl" then do
        pure { draft with operand := ← Read.fill draft.operand (ofJson value) }
      else draft.put variant name value
    ofMembers variant next rest

end

end Control

end GridQuery
