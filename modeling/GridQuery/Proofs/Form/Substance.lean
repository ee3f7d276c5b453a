import GridQuery.Proofs.Condition.Operands
import GridQuery.Proofs.Form.Memberwise

/-!
What compiled conditions are made of. Outside the conditions that hooks supply, every comparison has
an operand that is not blank, and every combination of the form has members: an emptied leaf is
dropped, and so is a combination that is left with nothing.
-/

namespace GridQuery

/-- The members are the conditions of the children, in order. A child without one is passed over. -/
inductive MembersOf (source : FormState → FilterExpr → Condition → Prop) :
    List FormState → List FilterExpr → List Condition → Prop
  | nil (filters : List FilterExpr) : MembersOf source [] filters []
  | inactive (child : FormState) (filter : FilterExpr) {children : List FormState}
      {filters : List FilterExpr} {members : List Condition}
      (later : MembersOf source children filters members) :
      MembersOf source (child :: children) (filter :: filters) members
  | active {child : FormState} {filter : FilterExpr} {condition : Condition}
      {children : List FormState} {filters : List FilterExpr} {members : List Condition}
      (first : source child filter condition) (later : MembersOf source children filters members) :
      MembersOf source (child :: children) (filter :: filters) (condition :: members)

namespace FormState

/-- The condition is put together as the state and the expression are, and the combinations have
members. At a leaf stands what its hook supplies, or a comparison with an operand that is not blank,
at the leaf's target or at the one put in its place. -/
inductive Substantial : FormState → FilterExpr → Condition → Prop
  | supplied {contents : FilterLeaf} {value : Json} {condition : Condition}
      (supplies : contents.outcome value = .condition condition) :
      Substantial (.leaf value) (.leaf contents) condition
  | compared {contents : FilterLeaf} {value : Json} {target : Option FieldTarget}
      {replacement : Option Json} {comparison : Comparison}
      (overrides : contents.outcome value = .override target replacement)
      (filled : ¬ comparison.operand.Blank) :
      Substantial (.leaf value) (.leaf contents)
        ((target.getD contents.target).constrain (.comparison comparison))
  | and {children : List FormState} {filters : List FilterExpr} {members : List Condition}
      (present : members ≠ []) (each : MembersOf Substantial children filters members) :
      Substantial (.and children) (.and filters) (.and members)
  | or {children : List FormState} {filters : List FilterExpr} {members : List Condition}
      (present : members ≠ []) (each : MembersOf Substantial children filters members) :
      Substantial (.or children) (.or filters) (.or members)
  | not {child : FormState} {filter : FilterExpr} {condition : Condition}
      (inner : Substantial child filter condition) :
      Substantial child.not filter.not condition.not

end FormState

/-- No hook supplies a whole condition; hooks only put another target or value in place. -/
def FilterExpr.OverridesOnly (expression : FilterExpr) : Prop :=
  ∀ leaf ∈ expression.leaves, ∀ hook, leaf.hook = some hook → ∀ value, ∃ target replacement,
    hook value = .override target replacement

namespace Condition

variable {property : Json → Prop}

theorem operands_nest (path : String) (condition : FieldCondition) :
    (nest path condition).operands = condition.operands := by
  refine nest_induct (motive := fun nested => nested.operands = condition.operands)
    (fun name => ?_) (fun name inner same => ?_) path
  · simp [field, operands, FieldCondition.operandsOfEntries]
  · simp [field, operands, FieldCondition.operandsOfEntries, FieldCondition.operands, same]

theorem mem_operands_constrain {target : FieldTarget} {condition : FieldCondition}
    {operand : Json} (member : operand ∈ (target.constrain condition).operands) :
    operand ∈ condition.operands := by
  cases target with
  | one path =>
    rwa [FieldTarget.constrain, operands_nest] at member
  | allOf paths | anyOf paths =>
    obtain ⟨nested, listed, member⟩ := mem_operandsOfList.mp member
    obtain ⟨path, _, rfl⟩ := List.mem_map.mp listed
    rwa [operands_nest] at member

theorem memberwise_operands :
    Memberwise fun condition => ∀ operand ∈ condition.operands, property operand where
  and members _ := by
    simp only [operands, mem_operandsOfList]
    grind
  or members _ := by
    simp only [operands, mem_operandsOfList]
    grind
  not inner := by rw [operands]

end Condition

namespace FilterLeaf

variable {leaf : FilterLeaf} {value : Json} {condition : Condition}

theorem Compares.filled {key : OperatorKey} {operand : Json}
    (compares : leaf.Compares value key operand) : ¬ operand.Blank := by
  cases compares <;> assumption

theorem condition?_eq_some (made : leaf.condition? value = some condition) :
    leaf.outcome value = .condition condition ∨ ∃ target replacement comparison,
      leaf.outcome value = .override target replacement ∧ ¬ comparison.operand.Blank ∧
        condition = (target.getD leaf.target).constrain (.comparison comparison) := by
  unfold condition? at made
  split at made
  next supplies =>
    cases made
    exact .inl supplies
  next target replacement overrides =>
    obtain ⟨comparison, compared, rfl⟩ := Option.map_eq_some_iff.mp made
    have filled := (comparison?_eq_some_iff.mp compared).filled
    exact .inr ⟨target, replacement, comparison, overrides, filled, rfl⟩

/-- Where hooks only override, no operand is blank. -/
theorem filled_of_overrides (overrides : ∀ hook, leaf.hook = some hook → ∀ value,
      ∃ target replacement, hook value = .override target replacement)
    (made : leaf.condition? value = some condition) :
    ∀ operand ∈ condition.operands, ¬ operand.Blank := by
  intro operand member
  rcases condition?_eq_some made with supplies | ⟨_, _, comparison, _, filled, rfl⟩
  · unfold outcome at supplies
    split at supplies
    next hook hooked =>
      obtain ⟨_, _, overrides⟩ := overrides hook hooked value
      cases overrides.symm.trans supplies
    next => cases supplies
  · have given := Condition.mem_operands_constrain member
    rw [FieldCondition.operands, List.mem_singleton] at given
    exact given ▸ filled

end FilterLeaf

namespace FormState

theorem membersOf_folded {children : List FormState} {filters : List FilterExpr}
    {results : List (Option Condition)} (folded : FoldedChildren (fun child filter result =>
      ∀ condition ∈ result, child.Substantial filter condition) children filters results) :
    MembersOf Substantial children filters (results.filterMap id) := by
  induction folded with
  | nil filters => exact .nil filters
  | @cons child filter result rest others results first later ih =>
    cases result with
    | none => exact .inactive child filter ih
    | some condition => exact .active (first condition rfl) ih

/-- Each handler keeps conditions substantial. -/
theorem conditionVisitor_substantial :
    conditionVisitor.Establishes fun state expression result =>
      ∀ condition ∈ result, state.Substantial expression condition where
  leaf contents value result made condition member := by
    cases made
    rcases FilterLeaf.condition?_eq_some member with supplies | ⟨_, _, _, overrides, filled, rfl⟩
    · exact .supplied supplies
    · exact .compared overrides filled
  and filters children results result folded made condition member := by
    cases made
    obtain ⟨present, rfl⟩ := combine?_eq_some_iff.mp member
    exact .and present (membersOf_folded folded)
  or filters children results result folded made condition member := by
    cases made
    obtain ⟨present, rfl⟩ := combine?_eq_some_iff.mp member
    exact .or present (membersOf_folded folded)
  not filter child inner result below made condition member := by
    cases made
    obtain ⟨negated, present, rfl⟩ := Option.map_eq_some_iff.mp member
    exact .not (below negated present)

/-- Outside the conditions that hooks supply, a compiled condition has no blank operand, and every
combination that it has from the form has members. If hooks only override, none of its operands is
blank. -/
theorem condition_substantial (expression : FilterExpr) (state : FormState)
    (condition : Condition) (compiled : state.condition? expression = .ok (some condition)) :
    state.Substantial expression condition ∧
      (expression.OverridesOnly → ∀ operand ∈ condition.operands, ¬ operand.Blank) := by
  refine ⟨fold_belongs conditionVisitor_substantial state expression _ compiled condition rfl, ?_⟩
  intro overridesOnly
  refine (memberwise_condition? Condition.memberwise_operands compiled).mpr ?_ condition rfl
  exact eachLeaf_of_leaves fun leaf listed value condition made =>
    FilterLeaf.filled_of_overrides (overridesOnly leaf listed) made

/-- A leaf whose hook empties every value, and one whose hook makes a list of it and looks for it
in two places. -/
def overriddenLeaves : FilterExpr :=
  .and [.leaf { FilterLeaf.plain .equals (.one "name") (.text none none) with
      hook := some fun _ => .override none (some (.array [])) },
    .or [.leaf { FilterLeaf.plain .isIn (.one "tag") (.text none none) with
        hook := some fun value => .override (some (.anyOf ["tag", "home.tag"]))
          (some (.array [value])) },
      .not (.leaf (.plain .like (.one "note") (.text none none)))]]

def overriddenState : FormState :=
  .and [.leaf (.string "Bath"), .or [.leaf (.string "new"), .not (.leaf (.string ""))]]

def eitherTag : Condition :=
  .and [.or [.or [.nest "tag" (.comparison ⟨.isIn, .array [.string "new"]⟩),
    .nest "home.tag" (.comparison ⟨.isIn, .array [.string "new"]⟩)]]]

/-- A leaf whose hook supplies a comparison with null, beside one that is left alone. -/
def suppliedLeaf : FilterExpr :=
  .or [.leaf { FilterLeaf.plain .equals (.one "name") (.text none none) with
      hook := some fun _ => .condition (.field "gone" (.comparison ⟨.eq, .null⟩)) },
    .leaf (.plain .equals (.one "name") (.text none none))]

def suppliedState : FormState :=
  .or [.leaf .null, .leaf (.string "")]

theorem eitherTag_substantial :
    overriddenLeaves.OverridesOnly ∧
      overriddenState.condition? overriddenLeaves = .ok (some eitherTag) ∧
      overriddenState.Substantial overriddenLeaves eitherTag ∧
      (∀ operand ∈ eitherTag.operands, ¬ operand.Blank) ∧
      suppliedState.Substantial suppliedLeaf (.or [.field "gone" (.comparison ⟨.eq, .null⟩)]) := by
  have overridesOnly : overriddenLeaves.OverridesOnly := by
    simp [FilterExpr.OverridesOnly, overriddenLeaves, FilterExpr.leaves, FilterExpr.leavesOfList,
      FilterLeaf.plain]
  have compiled : overriddenState.condition? overriddenLeaves = .ok (some eitherTag) := rfl
  obtain ⟨substantial, filled⟩ := condition_substantial _ _ _ compiled
  exact ⟨overridesOnly, compiled, substantial, filled overridesOnly,
    (condition_substantial suppliedLeaf suppliedState _ rfl).1⟩

end FormState

end GridQuery
