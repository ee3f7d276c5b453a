import GridQuery.Condition.Basic

/-!
Equality of conditions up to the order of conjuncts, disjuncts and comparisons. Each member of one
side takes the first unused equal member of the other, so repeated members are matched one for one.
-/

namespace GridQuery

/-- The list without its first element that passes the test, if there is one. -/
def removeFirst {α : Type} (test : α → Bool) : List α → Option (List α)
  | [] => none
  | candidate :: rest =>
    if test candidate then some rest else (removeFirst test rest).map (candidate :: ·)

def Comparison.sameList : List Comparison → List Comparison → Bool
  | [], right => right.isEmpty
  | comparison :: rest, right =>
    match removeFirst comparison.equal right with
    | some others => Comparison.sameList rest others
    | none => false

mutual

def Condition.same : Condition → Condition → Bool
  | .and left, .and right => Condition.sameMembers left right
  | .or left, .or right => Condition.sameMembers left right
  | .not left, .not right => Condition.same left right
  | .fields left, .fields right =>
    left.length = right.length && FieldCondition.sameEntries left right
  | _, _ => false
termination_by structural left => left

/-- Pairs every member on the left with a different one on the right. -/
def Condition.sameMembers : List Condition → List Condition → Bool
  | [], right => right.isEmpty
  | condition :: rest, right =>
    match removeFirst (Condition.same condition) right with
    | some others => Condition.sameMembers rest others
    | none => false

def FieldCondition.same : FieldCondition → FieldCondition → Bool
  | .comparison left, .comparison right => left.equal right
  | .comparisons left, .comparisons right => Comparison.sameList left right
  | .comparisons left, .comparisonSet right => Comparison.sameList left right
  | .comparisonSet left, .comparisons right => Comparison.sameList left right
  | .comparisonSet left, .comparisonSet right => Comparison.sameList left right
  | .nested left, .nested right => Condition.same left right
  | _, _ => false

/-- Every entry on the left has one of its name on the right, and the two are equal. -/
def FieldCondition.sameEntries :
    List (String × FieldCondition) → List (String × FieldCondition) → Bool
  | [], _ => true
  | (name, condition) :: rest, right =>
    (match Named.find? name right with
      | some other => FieldCondition.same condition other
      | none => false) && FieldCondition.sameEntries rest right

end

end GridQuery
