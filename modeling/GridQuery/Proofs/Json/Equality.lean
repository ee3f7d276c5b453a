import GridQuery.Json.Basic

/-!
Equality of JSON values is identity up to the sign of zero: two values are equal exactly when they
agree once every negative zero in them is made positive. It is therefore an equivalence.
-/

namespace GridQuery

namespace Binary64

def dropZeroSign (x : Binary64) : Binary64 :=
  { x with negative := x.negative && !x.isZero }

theorem sameValue_iff {x y : Binary64} :
    x.sameValue y = true ↔ x.dropZeroSign = y.dropZeroSign := by
  obtain ⟨xNegative, xMagnitude, xFinite⟩ := x
  obtain ⟨yNegative, yMagnitude, yFinite⟩ := y
  by_cases magnitudes : xMagnitude = yMagnitude
  · subst magnitudes
    by_cases zero : xMagnitude = 0
    · simp [sameValue, dropZeroSign, isZero, zero]
    · simp [sameValue, dropZeroSign, isZero, zero]
  · simp [sameValue, dropZeroSign, magnitudes]

end Binary64

namespace Number

def dropZeroSign : Number → Number
  | .integer value => .integer value
  | .double value => .double value.dropZeroSign

theorem equal_iff {left right : Number} :
    left.equal right = true ↔ left.dropZeroSign = right.dropZeroSign := by
  cases left with
  | integer left => cases right <;> simp [equal, dropZeroSign]
  | double left => cases right <;> simp [equal, dropZeroSign, Binary64.sameValue_iff]

end Number

namespace Json

mutual

def dropZeroSigns : Json → Json
  | .null => .null
  | .bool value => .bool value
  | .number value => .number value.dropZeroSign
  | .string text => .string text
  | .array items => .array (dropItemZeroSigns items)
  | .object members => .object (dropMemberZeroSigns members)

def dropItemZeroSigns : List Json → List Json
  | [] => []
  | item :: rest => dropZeroSigns item :: dropItemZeroSigns rest

def dropMemberZeroSigns : List (String × Json) → List (String × Json)
  | [] => []
  | (name, value) :: rest => (name, dropZeroSigns value) :: dropMemberZeroSigns rest

end

mutual

theorem equal_iff : ∀ left right : Json,
    left.equal right = true ↔ left.dropZeroSigns = right.dropZeroSigns
  | .null, right => by cases right <;> simp [equal, dropZeroSigns]
  | .bool left, right => by cases right <;> simp [equal, dropZeroSigns]
  | .number left, right => by cases right <;> simp [equal, dropZeroSigns, Number.equal_iff]
  | .string left, right => by cases right <;> simp [equal, dropZeroSigns]
  | .array left, right => by
    cases right with
    | array right => simp [equal, dropZeroSigns, equalItems_iff left right]
    | _ => simp [equal, dropZeroSigns]
  | .object left, right => by
    cases right with
    | object right => simp [equal, dropZeroSigns, equalMembers_iff left right]
    | _ => simp [equal, dropZeroSigns]
termination_by structural left => left

theorem equalItems_iff : ∀ left right : List Json,
    equalItems left right = true ↔ dropItemZeroSigns left = dropItemZeroSigns right
  | [], right => by cases right <;> simp [equalItems, dropItemZeroSigns]
  | left :: lefts, right => by
    cases right with
    | nil => simp [equalItems, dropItemZeroSigns]
    | cons right rights =>
      simp [equalItems, dropItemZeroSigns, equal_iff left right, equalItems_iff lefts rights]

theorem equalMembers_iff : ∀ left right : List (String × Json),
    equalMembers left right = true ↔ dropMemberZeroSigns left = dropMemberZeroSigns right
  | [], right => by cases right <;> simp [equalMembers, dropMemberZeroSigns]
  | (leftName, left) :: lefts, right => by
    cases right with
    | nil => simp [equalMembers, dropMemberZeroSigns]
    | cons right rights =>
      obtain ⟨rightName, right⟩ := right
      simp [equalMembers, dropMemberZeroSigns, equal_iff left right,
        equalMembers_iff lefts rights]

end

end Json

end GridQuery
