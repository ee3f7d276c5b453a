import GridQuery.Proofs.Form.Meaning

/-!
Properties of conditions that combinations and negations have exactly if their members do. Whether a
compiled condition has such a property is settled leaf by leaf.
-/

namespace GridQuery

/-- A combination or a negation has the property exactly if its members have it. -/
structure Condition.Memberwise (property : Condition → Prop) : Prop where
  and : ∀ members, members ≠ [] →
    (property (.and members) ↔ ∀ member ∈ members, property member)
  or : ∀ members, members ≠ [] → (property (.or members) ↔ ∀ member ∈ members, property member)
  not : ∀ inner, property (.not inner) ↔ property inner

/-- What holds of a constraint on a field, also if that is nested in another one, holds of the
constraint at the end of a path. -/
theorem Condition.nest_induct {motive : Condition → Prop} {condition : FieldCondition}
    (last : ∀ name, motive (field name condition))
    (outer : ∀ name inner, motive inner → motive (field name (.nested inner))) (path : String) :
    motive (nest path condition) := by
  unfold nest
  generalize (Path.ofString path).first = first
  induction (Path.ofString path).rest generalizing first with
  | nil => exact last first
  | cons second rest ih => exact outer first _ (ih second)

/-- What the leaf comes to, if anything, has the property. -/
def FilterLeaf.Yields (property : Condition → Prop) (leaf : FilterLeaf) (value : Json) : Prop :=
  ∀ condition ∈ leaf.condition? value, property condition

section

variable {combine : List Condition → Condition} {results : List (Option Condition)}
  {condition : Condition}

theorem combine?_eq_some_iff : combine? combine results = some condition ↔
    results.filterMap id ≠ [] ∧ combine (results.filterMap id) = condition := by
  unfold combine?
  generalize results.filterMap id = present
  cases present <;> simp

theorem forall_mem_combine? {property : Condition → Prop} (whole : ∀ members, members ≠ [] →
      (property (combine members) ↔ ∀ member ∈ members, property member)) :
    (∀ condition ∈ combine? combine results, property condition) ↔
      ∀ member ∈ results.filterMap id, property member := by
  simp only [Option.mem_def, combine?_eq_some_iff]
  generalize results.filterMap id = present
  cases present with
  | nil => simp
  | cons first rest => simp [whole (first :: rest)]

end

/-- Conditions are joined to one that has the property exactly if all of them have it. -/
theorem Condition.Memberwise.all_iff {property : Condition → Prop} {conditions : List Condition}
    (memberwise : Memberwise property) (nothing : property empty) :
    property (all conditions) ↔ ∀ condition ∈ conditions, property condition := by
  cases conditions with
  | nil => simp [all, nothing]
  | cons first rest =>
    cases rest with
    | nil => simp [all]
    | cons second rest => exact memberwise.and _ (List.cons_ne_nil _ _)

namespace FormState

variable {property : Condition → Prop} {state : FormState} {expression : FilterExpr}
  {result : Option Condition} {children : List FormState} {filters : List FilterExpr}
  {results : List (Option Condition)}

theorem forall_mem_members_iff {good : FilterLeaf → Json → Prop}
    (folded : FoldedChildren (fun child filter result =>
      (∀ condition ∈ result, property condition) ↔ child.EachLeaf good filter)
      children filters results) :
    (∀ member ∈ results.filterMap id, property member) ↔ EachLeafOfList good children filters := by
  induction folded with
  | nil filters => simp [EachLeafOfList]
  | @cons child filter result rest others results first later ih =>
    rw [EachLeafOfList, ← first, ← ih]
    cases result <;> simp

/-- Each handler keeps to what its leaves come to. -/
theorem conditionVisitor_memberwise (memberwise : Condition.Memberwise property) :
    conditionVisitor.Establishes fun state expression result =>
      (∀ condition ∈ result, property condition) ↔
        state.EachLeaf (FilterLeaf.Yields property) expression where
  leaf contents value result made := by
    cases made
    exact Iff.rfl
  and filters children results result folded made := by
    cases made
    rw [forall_mem_combine? memberwise.and]
    exact forall_mem_members_iff folded
  or filters children results result folded made := by
    cases made
    rw [forall_mem_combine? memberwise.or]
    exact forall_mem_members_iff folded
  not filter child inner result below made := by
    cases made
    rw [EachLeaf, ← below]
    cases inner <;> simp [memberwise.not]

theorem memberwise_condition? (memberwise : Condition.Memberwise property)
    (compiled : state.condition? expression = .ok result) :
    (∀ condition ∈ result, property condition) ↔
      state.EachLeaf (FilterLeaf.Yields property) expression :=
  fold_belongs (conditionVisitor_memberwise memberwise) state expression result compiled

end FormState

namespace FormStates

variable {property : Condition → Prop} {schema : FilterSchema}

theorem memberwise_activeConditions (memberwise : Condition.Memberwise property)
    {states : FormStates} {conditions : List Condition}
    (compiled : states.activeConditions schema = .ok conditions) :
    (∀ condition ∈ conditions, property condition) ↔
      EachKnown schema (FormState.EachLeaf (FilterLeaf.Yields property)) states :=
  forall_mem_activeConditions_iff (fun _ _ _ => FormState.memberwise_condition? memberwise) compiled

end FormStates

end GridQuery
