import GridQuery.Condition.Basic
import GridQuery.Json.Reading

/-!
Conditions in their JSON form. Which of the forms an object has is told by its keys: the three
combinators, comparison keys beginning with an underscore, or names of fields.
-/

namespace GridQuery

def isCombinator (key : String) : Bool :=
  key = "_and" || key = "_or" || key = "_not"

def isComparisonKey (key : String) : Bool :=
  key.toList.head? = some '_' && !isCombinator key

/-- A nested field whose name begins with an underscore is taken for a comparison. -/
def isComparisonObject (members : List (String × Json)) : Bool :=
  !members.isEmpty && members.all fun member => isComparisonKey member.1

/-- The comparisons of a list of comparison objects, in order. -/
def comparisonsOfItems (field : String) : List Json → Except ConditionFault (List Comparison)
  | [] => .ok []
  | .object members :: rest =>
    if isComparisonObject members then
      (comparisonsOfItems field rest).map (members.map Comparison.ofMember ++ ·)
    else .error (.listEntryKeys field)
  | _ :: _ => .error (.listEntry field)

mutual

def Condition.ofJson : Json → Except ConditionFault Condition
  | .object members => Condition.ofObject members
  | found => .error (.notObject found)

/-- An object that mixes combinators with other keys is the conjunction of its members. -/
def Condition.ofObject : List (String × Json) → Except ConditionFault Condition
  | [] => .ok .empty
  | [member] => Condition.ofMember member
  | member :: second :: rest =>
    if (member :: second :: rest).any fun member => isCombinator member.1 then do
      let first ← Condition.ofMember member
      let others ← Condition.ofMembers (second :: rest)
      return .and (first :: others)
    else do
      let first ← FieldCondition.ofMember member
      let others ← FieldCondition.ofMembers (second :: rest)
      return .fields (first :: others)

/-- Reads an object with a single member. -/
def Condition.ofMember : String × Json → Except ConditionFault Condition
  | (key, value) =>
    if key = "_and" then (Condition.ofList "_and" value).map .and
    else if key = "_or" then (Condition.ofList "_or" value).map .or
    else if key = "_not" then (Condition.ofJson value).map .not
    else (FieldCondition.ofJson key value).map (.field key)

def Condition.ofMembers : List (String × Json) → Except ConditionFault (List Condition)
  | [] => .ok []
  | member :: rest => do
    let first ← Condition.ofMember member
    let others ← Condition.ofMembers rest
    return first :: others

def Condition.ofList (key : String) : Json → Except ConditionFault (List Condition)
  | .array items => Condition.ofItems items
  | _ => .error (.notList key)

def Condition.ofItems : List Json → Except ConditionFault (List Condition)
  | [] => .ok []
  | item :: rest => do
    let first ← Condition.ofJson item
    let others ← Condition.ofItems rest
    return first :: others

def FieldCondition.ofJson (field : String) : Json → Except ConditionFault FieldCondition
  | .array items => (comparisonsOfItems field items).map .comparisons
  | .object members =>
    if isComparisonObject members then
      match members with
      | [member] => .ok (.comparison (.ofMember member))
      | members => .ok (.comparisonSet (members.map Comparison.ofMember))
    else (Condition.ofObject members).map .nested
  | found => .error (.fieldValue field found)

def FieldCondition.ofMember : String × Json → Except ConditionFault (String × FieldCondition)
  | (name, value) => (FieldCondition.ofJson name value).map (name, ·)

def FieldCondition.ofMembers :
    List (String × Json) → Except ConditionFault (List (String × FieldCondition))
  | [] => .ok []
  | member :: rest => do
    let first ← FieldCondition.ofMember member
    let others ← FieldCondition.ofMembers rest
    return first :: others

end

def Read.condition (document : Json) : Read Condition :=
  (Condition.ofJson document.canonical).mapError .condition

end GridQuery
