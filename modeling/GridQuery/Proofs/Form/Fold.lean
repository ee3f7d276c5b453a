import GridQuery.Filter.Schema
import GridQuery.Form.Fold
import GridQuery.Proofs.Outcome

/-!
What holds of the result of a fold follows from what holds of its handlers. The induction over state
and expression is made here once. What holds of all leaves that a state has values for, and what
holds of all states whose filter is known, are properties of their own.
-/

namespace GridQuery

variable {α : Type} {visitor : FormVisitor (Except ViewError) α}

/-- Each result belongs to the state and the expression at its place; expressions may be left
over. -/
inductive FoldedChildren (belongs : FormState → FilterExpr → α → Prop) :
    List FormState → List FilterExpr → List α → Prop
  | nil (filters : List FilterExpr) : FoldedChildren belongs [] filters []
  | cons {child : FormState} {filter : FilterExpr} {result : α} {rest : List FormState}
      {others : List FilterExpr} {results : List α} (first : belongs child filter result)
      (later : FoldedChildren belongs rest others results) :
      FoldedChildren belongs (child :: rest) (filter :: others) (result :: results)

namespace FoldedChildren

variable {belongs : FormState → FilterExpr → α → Prop} {children results : List FormState}
  {filters : List FilterExpr}

theorem imp {belongs' : FormState → FilterExpr → α → Prop} {results : List α}
    (weaker : ∀ child filter result, belongs child filter result → belongs' child filter result)
    (folded : FoldedChildren belongs children filters results) :
    FoldedChildren belongs' children filters results := by
  induction folded with
  | nil filters => exact .nil filters
  | cons first later ih => exact .cons (weaker _ _ _ first) ih

/-- What holds of the children and their expressions holds whatever becomes of them. -/
theorem unchanged {holds : FormState → FilterExpr → Prop} {results : List α}
    (folded : FoldedChildren (fun child filter _ => holds child filter) children filters results) :
    FoldedChildren (fun _ filter child => holds child filter) children filters children := by
  induction folded with
  | nil filters => exact .nil filters
  | cons first later ih => exact .cons first ih

variable {first second : FormState → FilterExpr → FormState → Prop}

theorem chain_iff : FoldedChildren (fun child filter result =>
      ∃ middle, first child filter middle ∧ second middle filter result) children filters results ↔
    ∃ middles, FoldedChildren first children filters middles ∧
      FoldedChildren second middles filters results := by
  constructor
  · intro folded
    induction folded with
    | nil filters => exact ⟨[], .nil filters, .nil filters⟩
    | cons here later ih =>
      obtain ⟨middle, before, after⟩ := here
      obtain ⟨middles, befores, afters⟩ := ih
      exact ⟨middle :: middles, .cons before befores, .cons after afters⟩
  · rintro ⟨middles, befores, afters⟩
    induction befores generalizing results with
    | nil filters =>
      cases afters
      exact .nil filters
    | cons before befores ih =>
      cases afters with
      | cons after afters => exact .cons ⟨_, before, after⟩ (ih afters)

end FoldedChildren

/-- The error says that a state has not the shape of its expression. -/
inductive ViewError.IsShapeFault : ViewError → Prop
  | mismatch (expected found : NodeKind) : IsShapeFault (.schemaMismatch expected found)
  | missing (index : Nat) : IsShapeFault (.missingChildSchema index)

namespace FormVisitor

/-- Every handler's result belongs to its node if the results it received belong to the children. -/
structure Establishes (visitor : FormVisitor (Except ViewError) α)
    (belongs : FormState → FilterExpr → α → Prop) : Prop where
  leaf : ∀ contents value result, visitor.leaf contents value = .ok result →
    belongs (.leaf value) (.leaf contents) result
  and : ∀ filters children results result, FoldedChildren belongs children filters results →
    visitor.and filters children results = .ok result →
      belongs (.and children) (.and filters) result
  or : ∀ filters children results result, FoldedChildren belongs children filters results →
    visitor.or filters children results = .ok result → belongs (.or children) (.or filters) result
  not : ∀ filter child inner result, belongs child filter inner →
    visitor.not filter child inner = .ok result → belongs (.not child) (.not filter) result

/-- The handlers of parents always give a result. -/
structure ParentsComplete (visitor : FormVisitor (Except ViewError) α) : Prop where
  and : ∀ filters children results, ∃ result, visitor.and filters children results = .ok result
  or : ∀ filters children results, ∃ result, visitor.or filters children results = .ok result
  not : ∀ filter child inner, ∃ result, visitor.not filter child inner = .ok result

end FormVisitor

namespace FormState

mutual

/-- The result of a fold belongs to the state and the expression if every handler establishes it. -/
theorem fold_belongs {belongs : FormState → FilterExpr → α → Prop}
    (rules : visitor.Establishes belongs) : ∀ (state : FormState) (expression : FilterExpr)
    (result : α), state.fold visitor expression = .ok result → belongs state expression result
  | .leaf value, expression, result, folded => by
    cases expression with
    | leaf contents => exact rules.leaf contents value result folded
    | and filters => cases folded
    | or filters => cases folded
    | not filter => cases folded
  | .and children, expression, result, folded => by
    cases expression with
    | and filters =>
      obtain ⟨results, inner, outer⟩ := bind_eq_ok.mp folded
      exact rules.and filters children results result
        (foldChildren_belongs rules children filters 0 results inner) outer
    | leaf contents => cases folded
    | or filters => cases folded
    | not filter => cases folded
  | .or children, expression, result, folded => by
    cases expression with
    | or filters =>
      obtain ⟨results, inner, outer⟩ := bind_eq_ok.mp folded
      exact rules.or filters children results result
        (foldChildren_belongs rules children filters 0 results inner) outer
    | leaf contents => cases folded
    | and filters => cases folded
    | not filter => cases folded
  | .not child, expression, result, folded => by
    cases expression with
    | not filter =>
      obtain ⟨inner, below, outer⟩ := bind_eq_ok.mp folded
      exact rules.not filter child inner result (fold_belongs rules child filter inner below) outer
    | leaf contents => cases folded
    | and filters => cases folded
    | or filters => cases folded
termination_by structural state => state

theorem foldChildren_belongs {belongs : FormState → FilterExpr → α → Prop}
    (rules : visitor.Establishes belongs) : ∀ (children : List FormState)
    (filters : List FilterExpr) (index : Nat) (results : List α),
    foldChildren visitor index children filters = .ok results →
      FoldedChildren belongs children filters results
  | [], filters, _, results, folded => by
    cases folded
    exact .nil filters
  | child :: rest, filters, index, results, folded => by
    cases filters with
    | nil => cases folded
    | cons filter others =>
      obtain ⟨result, here, folded⟩ := bind_eq_ok.mp folded
      obtain ⟨later, there, folded⟩ := bind_eq_ok.mp folded
      cases folded
      exact .cons (fold_belongs rules child filter result here)
        (foldChildren_belongs rules rest others (index + 1) later there)

end

mutual

/-- The value of every leaf that has an expression's leaf at its place is good for it. -/
def EachLeaf (good : FilterLeaf → Json → Prop) : FormState → FilterExpr → Prop
  | .leaf value, .leaf contents => good contents value
  | .and children, .and filters => EachLeafOfList good children filters
  | .or children, .or filters => EachLeafOfList good children filters
  | .not child, .not filter => child.EachLeaf good filter
  | _, _ => True
termination_by structural state => state

def EachLeafOfList (good : FilterLeaf → Json → Prop) : List FormState → List FilterExpr → Prop
  | child :: rest, filter :: others => child.EachLeaf good filter ∧ EachLeafOfList good rest others
  | _, _ => True

end

mutual

/-- The leaves that a state has values for, with their values, from left to right. -/
def pairedLeaves : FormState → FilterExpr → List (FilterLeaf × Json)
  | .leaf value, .leaf contents => [(contents, value)]
  | .and children, .and filters => pairedLeavesOfList children filters
  | .or children, .or filters => pairedLeavesOfList children filters
  | .not child, .not filter => child.pairedLeaves filter
  | _, _ => []
termination_by structural state => state

def pairedLeavesOfList : List FormState → List FilterExpr → List (FilterLeaf × Json)
  | child :: rest, filter :: others =>
    child.pairedLeaves filter ++ pairedLeavesOfList rest others
  | _, _ => []

end

variable {good : FilterLeaf → Json → Prop}

mutual

theorem eachLeaf_iff : ∀ {state : FormState} {expression : FilterExpr},
    state.EachLeaf good expression ↔
      ∀ pair ∈ state.pairedLeaves expression, good pair.1 pair.2
  | .leaf value, expression => by
    cases expression with
    | leaf contents =>
      rw [EachLeaf, pairedLeaves, List.forall_mem_singleton]
    | and | or | not => simp [EachLeaf, pairedLeaves]
  | .and children, expression => by
    cases expression with
    | and filters => exact eachLeafOfList_iff
    | leaf | or | not => simp [EachLeaf, pairedLeaves]
  | .or children, expression => by
    cases expression with
    | or filters => exact eachLeafOfList_iff
    | leaf | and | not => simp [EachLeaf, pairedLeaves]
  | .not child, expression => by
    cases expression with
    | not filter =>
      rw [EachLeaf, pairedLeaves]
      exact eachLeaf_iff
    | leaf | and | or => simp [EachLeaf, pairedLeaves]
termination_by structural state => state

theorem eachLeafOfList_iff : ∀ {children : List FormState} {filters : List FilterExpr},
    EachLeafOfList good children filters ↔
      ∀ pair ∈ pairedLeavesOfList children filters, good pair.1 pair.2
  | [], _ => ⟨fun _ => nofun, fun _ => trivial⟩
  | _ :: _, [] => ⟨fun _ => nofun, fun _ => trivial⟩
  | child :: rest, filter :: others => by
    rw [EachLeafOfList, pairedLeavesOfList, List.forall_mem_append, eachLeaf_iff,
      eachLeafOfList_iff]

end

mutual

theorem eachLeaf_of_leaves : ∀ {state : FormState} {expression : FilterExpr},
    (∀ leaf ∈ expression.leaves, ∀ value, good leaf value) → state.EachLeaf good expression
  | .leaf value, expression, each => by
    cases expression with
    | leaf contents => exact each contents (List.mem_singleton_self contents) value
    | and | or | not => trivial
  | .and children, expression, each => by
    cases expression with
    | and filters => exact eachLeafOfList_of_leaves each
    | leaf | or | not => trivial
  | .or children, expression, each => by
    cases expression with
    | or filters => exact eachLeafOfList_of_leaves each
    | leaf | and | not => trivial
  | .not child, expression, each => by
    cases expression with
    | not filter =>
      rw [EachLeaf]
      exact eachLeaf_of_leaves each
    | leaf | and | or => trivial
termination_by structural state => state

theorem eachLeafOfList_of_leaves : ∀ {children : List FormState} {filters : List FilterExpr},
    (∀ leaf ∈ FilterExpr.leavesOfList filters, ∀ value, good leaf value) →
      EachLeafOfList good children filters
  | [], _, _ => trivial
  | _ :: _, [], _ => trivial
  | child :: rest, filter :: others, each => by
    obtain ⟨first, later⟩ := List.forall_mem_append.mp each
    exact ⟨eachLeaf_of_leaves first, eachLeafOfList_of_leaves later⟩

end

theorem EachLeaf.imp {good' : FilterLeaf → Json → Prop} {state : FormState}
    {expression : FilterExpr} (leaves : state.EachLeaf good expression)
    (weaker : ∀ leaf value, good leaf value → good' leaf value) :
    state.EachLeaf good' expression :=
  eachLeaf_iff.mpr fun pair member => weaker _ _ (eachLeaf_iff.mp leaves pair member)

end FormState

namespace FormStates

/-- The property holds of every state whose filter is known, and its filter's expression. -/
def EachKnown (schema : FilterSchema) (property : FormState → FilterExpr → Prop)
    (states : FormStates) : Prop :=
  ∀ id state filter, (id, state) ∈ states → schema.filter? id = some filter →
    property state filter.expression

variable {schema : FilterSchema}

theorem eachKnown_cons {property : FormState → FilterExpr → Prop} {id : String}
    {state : FormState} {rest : FormStates} :
    EachKnown schema property ((id, state) :: rest) ↔
      (∀ filter, schema.filter? id = some filter → property state filter.expression) ∧
        EachKnown schema property rest := by
  constructor
  · intro holds
    exact ⟨fun filter => holds id state filter (List.mem_cons_self ..),
      fun other child filter member => holds other child filter (List.mem_cons_of_mem _ member)⟩
  · rintro ⟨here, later⟩ other child filter member
    rcases List.mem_cons.mp member with same | member
    · cases same
      exact here filter
    · exact later other child filter member

end FormStates

end GridQuery
