import GridQuery.Condition.Basic
import GridQuery.Filter.Control

/-!
Filter expressions: comparisons of fields with the values of input controls, combined by
conjunction, disjunction and negation.
-/

namespace GridQuery

/-- What a leaf compares: one field, or every or some field of a group. -/
inductive FieldTarget where
  | one (path : String)
  | allOf (paths : List String)
  | anyOf (paths : List String)
deriving DecidableEq

namespace FieldTarget

def paths : FieldTarget → List String
  | .one path => [path]
  | .allOf paths => paths
  | .anyOf paths => paths

/-- Puts one constraint under every path of the target. -/
def constrain (condition : FieldCondition) : FieldTarget → Condition
  | .one path => .nest path condition
  | .allOf paths => .and (paths.map fun path => .nest path condition)
  | .anyOf paths => .or (paths.map fun path => .nest path condition)

def toJson : FieldTarget → Json
  | .one path => .string path
  | .allOf paths => .single "and" (Json.strings paths)
  | .anyOf paths => .single "or" (Json.strings paths)

/-- The paths under `name`, if they can be read and are given once. -/
def group? (name : String) (members : List (String × Json)) : Option (List String) :=
  match members.filter (fun member => member.1 = name) with
  | [(_, value)] => (Read.list Read.string value).toOption
  | _ => none

def ofJson : Json → Read FieldTarget
  | .string path => .ok (.one path)
  | .object members =>
    match group? "and" members with
    | some paths => .ok (.allOf paths)
    | none =>
      match group? "or" members with
      | some paths => .ok (.anyOf paths)
      | none => .error .malformed
  | _ => .error .malformed

end FieldTarget

inductive FilterOperator where
  | equals
  | notEquals
  | greaterThan
  | lessThan
  | greaterThanOrEqual
  | lessThanOrEqual
  | isIn
  | notIn
  | like
  | ilike
  | isNull
deriving DecidableEq

namespace FilterOperator

def all : List FilterOperator :=
  [.equals, .notEquals, .greaterThan, .lessThan, .greaterThanOrEqual, .lessThanOrEqual, .isIn,
    .notIn, .like, .ilike, .isNull]

def text : FilterOperator → String
  | .equals => "equals"
  | .notEquals => "notEquals"
  | .greaterThan => "greaterThan"
  | .lessThan => "lessThan"
  | .greaterThanOrEqual => "greaterThanOrEqual"
  | .lessThanOrEqual => "lessThanOrEqual"
  | .isIn => "in"
  | .notIn => "notIn"
  | .like => "like"
  | .ilike => "iLike"
  | .isNull => "isNull"

def ofText? (text : String) : Option FilterOperator :=
  all.find? fun operator => operator.text = text

def key : FilterOperator → OperatorKey
  | .equals => .eq
  | .notEquals => .neq
  | .greaterThan => .gt
  | .lessThan => .lt
  | .greaterThanOrEqual => .gte
  | .lessThanOrEqual => .lte
  | .isIn => .isIn
  | .notIn => .notIn
  | .like => .like
  | .ilike => .ilike
  | .isNull => .isNull

def isMembership (operator : FilterOperator) : Bool :=
  operator = .isIn || operator = .notIn

end FilterOperator

/-- What a hook makes of a leaf's value: another target or value, or the whole condition. -/
inductive Outcome where
  | override (target : Option FieldTarget) (value : Option Json)
  | condition (condition : Condition)

abbrev Hook := Json → Outcome

structure FilterLeaf where
  operator : FilterOperator
  target : FieldTarget
  control : Control
  hookName : Option String
  hook : Option Hook

inductive FilterExpr where
  | leaf (contents : FilterLeaf)
  | and (filters : List FilterExpr)
  | or (filters : List FilterExpr)
  | not (filter : FilterExpr)

def FilterLeaf.plain (operator : FilterOperator) (target : FieldTarget) (control : Control) :
    FilterLeaf :=
  ⟨operator, target, control, none, none⟩

def FilterLeaf.toJson (leaf : FilterLeaf) : Json :=
  .object (("field", leaf.target.toJson) ::
    Json.optional "transform" (leaf.hookName.map .string) ++
    [("type", .string leaf.operator.text), ("value", leaf.control.toJson)])

namespace FilterExpr

instance : Inhabited FilterExpr := ⟨.and []⟩

def kind : FilterExpr → NodeKind
  | .leaf _ => .leaf
  | .and _ => .and
  | .or _ => .or
  | .not _ => .not

def leaf? : FilterExpr → Option FilterLeaf
  | .leaf contents => some contents
  | _ => none

mutual

/-- The leaves from left to right. -/
def leaves : FilterExpr → List FilterLeaf
  | .leaf contents => [contents]
  | .and filters => leavesOfList filters
  | .or filters => leavesOfList filters
  | .not filter => leaves filter

def leavesOfList : List FilterExpr → List FilterLeaf
  | [] => []
  | filter :: rest => leaves filter ++ leavesOfList rest

end

section

variable {ε : Type}

mutual

/-- Updates the leaves from left to right until one fails: the expression with the leaves before
that one updated, and the failure. -/
def updateLeaves (step : FilterLeaf → Except ε FilterLeaf) : FilterExpr → FilterExpr × Option ε
  | .leaf contents =>
    match step contents with
    | .ok updated => (.leaf updated, none)
    | .error failure => (.leaf contents, some failure)
  | .and filters =>
    let (updated, failure) := updateList step filters
    (.and updated, failure)
  | .or filters =>
    let (updated, failure) := updateList step filters
    (.or updated, failure)
  | .not filter =>
    let (updated, failure) := updateLeaves step filter
    (.not updated, failure)

def updateList (step : FilterLeaf → Except ε FilterLeaf) :
    List FilterExpr → List FilterExpr × Option ε
  | [] => ([], none)
  | filter :: rest =>
    match updateLeaves step filter with
    | (updated, some failure) => (updated :: rest, some failure)
    | (updated, none) =>
      let (others, failure) := updateList step rest
      (updated :: others, failure)

end

end

mutual

def toJson : FilterExpr → Json
  | .leaf contents => contents.toJson
  | .and filters => .object [("filters", .array (listToJson filters)), ("type", .string "and")]
  | .or filters => .object [("filters", .array (listToJson filters)), ("type", .string "or")]
  | .not filter => .object [("filter", filter.toJson), ("type", .string "not")]

def listToJson : List FilterExpr → List Json
  | [] => []
  | filter :: rest => filter.toJson :: listToJson rest

end

inductive Variant where
  | leaf (operator : FilterOperator)
  | and
  | or
  | not
deriving DecidableEq

def Variant.ofTag? (tag : String) : Option Variant :=
  if tag = "and" then some .and
  else if tag = "or" then some .or
  else if tag = "not" then some .not
  else (FilterOperator.ofText? tag).map .leaf

structure Draft where
  target : Option FieldTarget := none
  control : Option Control := none
  hookName : Option (Option String) := none
  filters : Option (List FilterExpr) := none
  filter : Option FilterExpr := none

/-- Reads a member of a leaf. -/
def Draft.put (draft : Draft) (name : String) (value : Json) : Read Draft :=
  if name = "field" then do
    return { draft with target := ← Read.fill draft.target (FieldTarget.ofJson value) }
  else if name = "transform" then do
    return { draft with hookName := ← Read.fill draft.hookName (Read.nullable Read.string value) }
  else if name = "value" then do
    return { draft with control := ← Read.fill draft.control (Control.ofJson value) }
  else .ok draft

def Draft.finish (draft : Draft) : Variant → Read FilterExpr
  | .leaf operator => do
    let target ← Read.required draft.target
    let control ← Read.required draft.control
    return .leaf ⟨operator, target, control, draft.hookName.join, none⟩
  | .and => (Read.required draft.filters).map .and
  | .or => (Read.required draft.filters).map .or
  | .not => (Read.required draft.filter).map .not

mutual

def ofJson : Json → Read FilterExpr
  | .object members => do
    let tag ← Read.tag members
    let variant ← Read.required (Variant.ofTag? tag)
    let draft ← ofMembers variant {} members
    draft.finish variant
  | _ => .error .malformed
termination_by structural document => document

def ofMembers (variant : Variant) (draft : Draft) : List (String × Json) → Read Draft
  | [] => .ok draft
  | (name, value) :: rest => do
    let next ←
      match variant with
      | .leaf _ => draft.put name value
      | .not =>
        if name = "filter" then do
          pure { draft with filter := ← Read.fill draft.filter (ofJson value) }
        else pure draft
      | _ =>
        if name = "filters" then do
          pure { draft with filters := ← Read.fill draft.filters (ofList value) }
        else pure draft
    ofMembers variant next rest

def ofList : Json → Read (List FilterExpr)
  | .array items => ofItems items
  | _ => .error .malformed

def ofItems : List Json → Read (List FilterExpr)
  | [] => .ok []
  | item :: rest => do
    let first ← ofJson item
    let others ← ofItems rest
    return first :: others

end

end FilterExpr

end GridQuery
