import GridQuery.Filter.Expr

/-!
The truth of conditions, given which comparisons hold. A comparison is told by the path of field
names that leads to it, by its operator and by its operand. A constraint put under a dotted path is
true exactly where it is true at the end of that path.
-/

namespace GridQuery

/-- Says which comparisons hold of what lies at a path. -/
abbrev Truth := List String → OperatorKey → Json → Prop

def Comparison.Holds (truth : Truth) (path : List String) (comparison : Comparison) : Prop :=
  truth path comparison.key comparison.operand

mutual

/-- Truth of a condition on the object at `path`. -/
def Condition.Holds (truth : Truth) (path : List String) : Condition → Prop
  | .and members => Condition.EveryHolds truth path members
  | .or members => Condition.SomeHolds truth path members
  | .not inner => ¬ inner.Holds truth path
  | .fields entries => FieldCondition.EntriesHold truth path entries

def Condition.EveryHolds (truth : Truth) (path : List String) : List Condition → Prop
  | [] => True
  | condition :: rest => condition.Holds truth path ∧ Condition.EveryHolds truth path rest

def Condition.SomeHolds (truth : Truth) (path : List String) : List Condition → Prop
  | [] => False
  | condition :: rest => condition.Holds truth path ∨ Condition.SomeHolds truth path rest

/-- Truth of a constraint on the field at `path`. -/
def FieldCondition.Holds (truth : Truth) (path : List String) : FieldCondition → Prop
  | .comparison comparison => comparison.Holds truth path
  | .comparisons list => ∀ comparison ∈ list, comparison.Holds truth path
  | .comparisonSet set => ∀ comparison ∈ set, comparison.Holds truth path
  | .nested condition => condition.Holds truth path

def FieldCondition.EntriesHold (truth : Truth) (path : List String) :
    List (String × FieldCondition) → Prop
  | [] => True
  | (name, condition) :: rest =>
    condition.Holds truth (path ++ [name]) ∧ FieldCondition.EntriesHold truth path rest

end

namespace Condition

variable {truth : Truth} {path : List String}

theorem everyHolds_iff {members : List Condition} :
    EveryHolds truth path members ↔ ∀ member ∈ members, member.Holds truth path := by
  induction members with
  | nil => simp [EveryHolds]
  | cons member rest ih => simp [EveryHolds, ih]

theorem someHolds_iff {members : List Condition} :
    SomeHolds truth path members ↔ ∃ member ∈ members, member.Holds truth path := by
  induction members with
  | nil => simp [SomeHolds]
  | cons member rest ih => simp [SomeHolds, ih]

@[simp]
theorem holds_and {members : List Condition} :
    (Condition.and members).Holds truth path ↔ ∀ member ∈ members, member.Holds truth path := by
  rw [Holds, everyHolds_iff]

@[simp]
theorem holds_or {members : List Condition} :
    (Condition.or members).Holds truth path ↔ ∃ member ∈ members, member.Holds truth path := by
  rw [Holds, someHolds_iff]

@[simp]
theorem holds_not {inner : Condition} :
    inner.not.Holds truth path ↔ ¬ inner.Holds truth path := by
  rw [Holds]

@[simp]
theorem holds_field {name : String} {condition : FieldCondition} :
    (field name condition).Holds truth path ↔ condition.Holds truth (path ++ [name]) := by
  simp [field, Holds, FieldCondition.EntriesHold]

theorem holds_nestSegments (condition : FieldCondition) (first : String) (rest : List String) :
    (nestSegments condition first rest).Holds truth path ↔
      condition.Holds truth (path ++ first :: rest) := by
  induction rest generalizing first path with
  | nil => simp [nestSegments]
  | cons second rest ih =>
    rw [nestSegments, holds_field, FieldCondition.Holds, ih]
    simp only [List.append_assoc, List.singleton_append]

/-- What is nested under a dotted path is constrained at the end of the path. -/
theorem holds_nest (condition : FieldCondition) (text : String) :
    (nest text condition).Holds truth path ↔
      condition.Holds truth (path ++ (Path.ofString text).segments) :=
  holds_nestSegments condition _ _

/-- No condition, one condition and several conditions are all read as their conjunction. -/
theorem holds_all {conditions : List Condition} :
    (all conditions).Holds truth path ↔
      ∀ condition ∈ conditions, condition.Holds truth path := by
  match conditions with
  | [] => simp [all, empty, Holds, FieldCondition.EntriesHold]
  | [condition] => simp [all]
  | first :: second :: rest => exact holds_and

end Condition

namespace FieldTarget

variable {truth : Truth} {path : List String}

/-- Whether a property of paths holds of the target: of its path, or of all or some of the paths of
its group. -/
def Satisfies (property : List String → Prop) : FieldTarget → Prop
  | .one path => property (Path.ofString path).segments
  | .allOf paths => ∀ path ∈ paths, property (Path.ofString path).segments
  | .anyOf paths => ∃ path ∈ paths, property (Path.ofString path).segments

/-- A constraint on a target is read at each of the target's paths. -/
theorem holds_constrain (condition : FieldCondition) (target : FieldTarget) :
    (target.constrain condition).Holds truth path ↔
      target.Satisfies fun segments => condition.Holds truth (path ++ segments) := by
  cases target with
  | one text => exact Condition.holds_nest condition text
  | allOf texts => simp [constrain, Satisfies, Condition.holds_nest]
  | anyOf texts =>
    rw [constrain, Condition.holds_or]
    constructor
    · rintro ⟨member, present, holds⟩
      obtain ⟨text, listed, rfl⟩ := List.mem_map.mp present
      exact ⟨text, listed, (Condition.holds_nest condition text).mp holds⟩
    · rintro ⟨text, listed, holds⟩
      exact ⟨_, List.mem_map_of_mem listed, (Condition.holds_nest condition text).mpr holds⟩

end FieldTarget

end GridQuery
