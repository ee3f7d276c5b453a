import GridQuery.Json.Printer
import GridQuery.Text.Path

/-!
Boolean conditions on rows: conjunction, disjunction and negation over constraints on named fields.
A field is constrained by comparisons, or by a nested condition on the object that it holds.
-/

namespace GridQuery

inductive OperatorKey where
  | eq
  | neq
  | gt
  | lt
  | gte
  | lte
  | isIn
  | notIn
  | like
  | ilike
  | isNull
  | similar
  | notSimilar
  | regex
  | notRegex
  | iregex
  | notIregex
  | custom (key : String)
deriving DecidableEq

namespace OperatorKey

def text : OperatorKey → String
  | .eq => "_eq"
  | .neq => "_neq"
  | .gt => "_gt"
  | .lt => "_lt"
  | .gte => "_gte"
  | .lte => "_lte"
  | .isIn => "_in"
  | .notIn => "_nin"
  | .like => "_like"
  | .ilike => "_ilike"
  | .isNull => "_is_null"
  | .similar => "_similar"
  | .notSimilar => "_nsimilar"
  | .regex => "_regex"
  | .notRegex => "_nregex"
  | .iregex => "_iregex"
  | .notIregex => "_niregex"
  | .custom key => key

def builtins : List OperatorKey :=
  [.eq, .neq, .gt, .lt, .gte, .lte, .isIn, .notIn, .like, .ilike, .isNull, .similar, .notSimilar,
    .regex, .notRegex, .iregex, .notIregex]

def ofText (key : String) : OperatorKey :=
  (builtins.find? fun builtin => builtin.text = key).getD (.custom key)

def isCustom : OperatorKey → Bool
  | .custom _ => true
  | _ => false

end OperatorKey

structure Comparison where
  key : OperatorKey
  operand : Json

namespace Comparison

def ofMember (member : String × Json) : Comparison :=
  ⟨.ofText member.1, member.2⟩

def member (comparison : Comparison) : String × Json :=
  (comparison.key.text, comparison.operand)

def toJson (comparison : Comparison) : Json :=
  .object [comparison.member]

/-- Same key, and operands equal as JSON values. -/
def equal (left right : Comparison) : Bool :=
  left.key = right.key && left.operand.equal right.operand

end Comparison

mutual

/-- The entries of `fields` are in ascending order of their names. -/
inductive Condition where
  | and (members : List Condition)
  | or (members : List Condition)
  | not (inner : Condition)
  | fields (entries : List (String × FieldCondition))

/-- Several comparisons of one field must all hold, whether they are given as a list of objects
(`comparisons`) or as one object (`comparisonSet`). -/
inductive FieldCondition where
  | comparison (comparison : Comparison)
  | comparisons (list : List Comparison)
  | comparisonSet (set : List Comparison)
  | nested (condition : Condition)

end

namespace Condition

/-- Holds of every row. -/
def empty : Condition :=
  .fields []

instance : Inhabited Condition := ⟨empty⟩

def isEmpty : Condition → Bool
  | .fields [] => true
  | _ => false

def field (name : String) (condition : FieldCondition) : Condition :=
  .fields [(name, condition)]

/-- Constrains what lies at the end of a path of nested fields. -/
def nestSegments (condition : FieldCondition) : String → List String → Condition
  | last, [] => field last condition
  | first, second :: rest => field first (.nested (nestSegments condition second rest))

def nest (path : String) (condition : FieldCondition) : Condition :=
  nestSegments condition (Path.ofString path).first (Path.ofString path).rest

/-- No conditions hold of every row, one stands for itself, several must all hold. -/
def all : List Condition → Condition
  | [] => empty
  | [condition] => condition
  | conditions => .and conditions

end Condition

mutual

def Condition.toJson : Condition → Json
  | .and members => .single "_and" (.array (Condition.listToJson members))
  | .or members => .single "_or" (.array (Condition.listToJson members))
  | .not inner => .single "_not" inner.toJson
  | .fields entries => .object (FieldCondition.entriesToJson entries)

def Condition.listToJson : List Condition → List Json
  | [] => []
  | condition :: rest => condition.toJson :: Condition.listToJson rest

def FieldCondition.toJson : FieldCondition → Json
  | .comparison comparison => comparison.toJson
  | .comparisons list => .array (list.map Comparison.toJson)
  | .comparisonSet set => .object (Named.ofList (set.map Comparison.member))
  | .nested condition => condition.toJson

def FieldCondition.entriesToJson : List (String × FieldCondition) → List (String × Json)
  | [] => []
  | (name, condition) :: rest => (name, condition.toJson) :: FieldCondition.entriesToJson rest

end

def Condition.text (condition : Condition) : String :=
  condition.toJson.compact

end GridQuery
