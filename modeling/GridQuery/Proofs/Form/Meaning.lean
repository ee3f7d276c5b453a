import GridQuery.Form.Compile
import GridQuery.Proofs.Condition.Truth
import GridQuery.Proofs.Form.Fold

/-!
The meaning of a filled form, read off the filter expressions without building a condition, and the
proof that the condition built from the form has that meaning. An inactive part is left out of what
surrounds it: it is neither true nor false there.
-/

namespace GridQuery

/-- What an input holds when it is left alone. -/
inductive Json.Blank : Json → Prop
  | null : Blank .null
  | text : Blank (.string "")
  | array : Blank (.array [])

theorem Json.isBlank_iff {value : Json} : value.isBlank = true ↔ value.Blank := by
  constructor
  · intro blank
    cases value with
    | null => exact .null
    | string text =>
      obtain rfl : text = "" := by simpa [isBlank] using blank
      exact .text
    | array items =>
      obtain rfl : items = [] := by simpa [isBlank] using blank
      exact .array
    | bool value => cases blank
    | number value => cases blank
    | object members => cases blank
  · rintro (_ | _ | _) <;> rfl

namespace FilterLeaf

/-- With which operator and operand a leaf compares, given the value that its hook leaves. The pair
of an operator choice must name an operator and hold an operand. -/
inductive Compares (leaf : FilterLeaf) : Json → OperatorKey → Json → Prop
  | value {value : Json} (plain : leaf.control.operators? = none) (filled : ¬ value.Blank) :
      Compares leaf value leaf.operator.key value
  | chosen {operators : List Choice} {members : List (String × Json)} {operator : String}
      {operand : Json} (choice : leaf.control.operators? = some operators)
      (named : Named.find? "operator" members = some (.string operator)) (chosen : operator ≠ "")
      (given : Named.find? "value" members = some operand) (filled : ¬ operand.Blank) :
      Compares leaf (.object members) (.ofText operator) operand

/-- The comparison that the leaf makes, if any, is true of the target. -/
def ComparesAt (truth : Truth) (leaf : FilterLeaf) (target : FieldTarget) (value : Json) : Prop :=
  ∃ key operand, leaf.Compares value key operand ∧
    target.Satisfies fun path => truth path key operand

def Active (leaf : FilterLeaf) (value : Json) : Prop :=
  match leaf.hook with
  | none => ∃ key operand, leaf.Compares value key operand
  | some hook =>
    match hook value with
    | .condition _ => True
    | .override _ replacement => ∃ key operand, leaf.Compares (replacement.getD value) key operand

/-- A hook's condition is the whole meaning of its leaf; otherwise the comparison is made at the
leaf's target, or at the one that the hook puts in its place. -/
def Meaning (truth : Truth) (leaf : FilterLeaf) (value : Json) : Prop :=
  match leaf.hook with
  | none => leaf.ComparesAt truth leaf.target value
  | some hook =>
    match hook value with
    | .condition condition => condition.Holds truth []
    | .override target replacement =>
      leaf.ComparesAt truth (target.getD leaf.target) (replacement.getD value)

end FilterLeaf

namespace FormState

mutual

/-- Whether the state says anything about the rows. -/
def Active : FormState → FilterExpr → Prop
  | .leaf value, .leaf contents => contents.Active value
  | .and children, .and filters => AnyActive children filters
  | .or children, .or filters => AnyActive children filters
  | .not child, .not filter => child.Active filter
  | _, _ => False
termination_by structural state => state

def AnyActive : List FormState → List FilterExpr → Prop
  | child :: rest, filter :: others => child.Active filter ∨ AnyActive rest others
  | _, _ => False

end

mutual

/-- What an active state says about the rows. -/
def Meaning (truth : Truth) : FormState → FilterExpr → Prop
  | .leaf value, .leaf contents => contents.Meaning truth value
  | .and children, .and filters => EveryActiveMeans truth children filters
  | .or children, .or filters => SomeActiveMeans truth children filters
  | .not child, .not filter => ¬ child.Meaning truth filter
  | _, _ => True
termination_by structural state => state

def EveryActiveMeans (truth : Truth) : List FormState → List FilterExpr → Prop
  | child :: rest, filter :: others =>
    (child.Active filter → child.Meaning truth filter) ∧ EveryActiveMeans truth rest others
  | _, _ => True

def SomeActiveMeans (truth : Truth) : List FormState → List FilterExpr → Prop
  | child :: rest, filter :: others =>
    (child.Active filter ∧ child.Meaning truth filter) ∨ SomeActiveMeans truth rest others
  | _, _ => False

end

mutual

/-- A state is active if one of its leaves is. -/
theorem active_iff_exists_leaf : ∀ {state : FormState} {expression : FilterExpr},
    state.Active expression ↔ ∃ pair ∈ state.pairedLeaves expression, pair.1.Active pair.2
  | .leaf value, expression => by
    cases expression with
    | leaf contents => simp [Active, pairedLeaves]
    | and | or | not => simp [Active, pairedLeaves]
  | .and children, expression => by
    cases expression with
    | and filters => exact anyActive_iff_exists_leaf
    | leaf | or | not => simp [Active, pairedLeaves]
  | .or children, expression => by
    cases expression with
    | or filters => exact anyActive_iff_exists_leaf
    | leaf | and | not => simp [Active, pairedLeaves]
  | .not child, expression => by
    cases expression with
    | not filter =>
      rw [Active, pairedLeaves]
      exact active_iff_exists_leaf
    | leaf | and | or => simp [Active, pairedLeaves]
termination_by structural state => state

theorem anyActive_iff_exists_leaf : ∀ {children : List FormState} {filters : List FilterExpr},
    AnyActive children filters ↔
      ∃ pair ∈ pairedLeavesOfList children filters, pair.1.Active pair.2
  | [], _ => by simp [AnyActive, pairedLeavesOfList]
  | _ :: _, [] => by simp [AnyActive, pairedLeavesOfList]
  | child :: rest, filter :: others => by
    rw [AnyActive, pairedLeavesOfList, active_iff_exists_leaf, anyActive_iff_exists_leaf]
    simp only [List.mem_append, or_and_right, exists_or]

end

end FormState

/-- The condition that an active part comes to has the meaning `meaning`; an inactive part comes to
none. -/
def Reads (truth : Truth) (active meaning : Prop) : Option Condition → Prop
  | none => ¬ active
  | some condition => active ∧ (condition.Holds truth [] ↔ meaning)

namespace FilterLeaf

variable {leaf : FilterLeaf} {value : Json} {comparison : Comparison}

theorem comparison?_of_plain (plain : leaf.control.operators? = none) :
    leaf.comparison? value = if value.isBlank then none else some ⟨leaf.operator.key, value⟩ := by
  unfold comparison?
  split
  next control => rw [control] at plain; cases plain
  next => rfl

theorem comparison?_of_choice {operators : List Choice}
    (choice : leaf.control.operators? = some operators) :
    leaf.comparison? value = chosenComparison? value := by
  unfold comparison?
  split
  next => rfl
  next other => cases control : leaf.control <;> simp_all [Control.operators?]

theorem chosenComparison?_of_pair {members : List (String × Json)} {operator : String}
    {operand : Json} (named : Named.find? "operator" members = some (.string operator))
    (chosen : operator ≠ "") (given : Named.find? "value" members = some operand)
    (filled : ¬ operand.Blank) :
    chosenComparison? (.object members) = some ⟨.ofText operator, operand⟩ := by
  rw [← Json.isBlank_iff] at filled
  simp [chosenComparison?, Json.get?, Json.getOrNull, named, given, chosen, filled]

theorem chosenComparison?_eq_some (made : chosenComparison? value = some comparison) :
    ∃ members operator, value = .object members ∧
      Named.find? "operator" members = some (.string operator) ∧ operator ≠ "" ∧
      Named.find? "value" members = some comparison.operand ∧ ¬ comparison.operand.Blank ∧
      comparison.key = .ofText operator := by
  unfold chosenComparison? at made
  split at made
  next operator named =>
    dsimp only at made
    split at made
    next => cases made
    next usable =>
      simp only [Bool.or_eq_true, String.isEmpty_iff, Json.isBlank_iff, not_or] at usable
      obtain ⟨chosen, filled⟩ := usable
      cases made
      cases value with
      | object members =>
        cases found : Named.find? "value" members with
        | none => exact (filled (by simpa [Json.getOrNull, Json.get?, found] using .null)).elim
        | some operand =>
          have given : Json.getOrNull "value" (.object members) = operand := by
            simp [Json.getOrNull, Json.get?, found]
          rw [given] at filled ⊢
          exact ⟨members, operator, rfl, named, chosen, found, filled, rfl⟩
      | null => cases named
      | bool value => cases named
      | number value => cases named
      | string value => cases named
      | array items => cases named
  next => cases made

theorem comparison?_of_compares {key : OperatorKey} {operand : Json}
    (compares : leaf.Compares value key operand) :
    leaf.comparison? value = some ⟨key, operand⟩ := by
  cases compares with
  | value plain filled =>
    rw [comparison?_of_plain plain, if_neg (mt Json.isBlank_iff.mp filled)]
  | chosen choice named chosen given filled =>
    rw [comparison?_of_choice choice, chosenComparison?_of_pair named chosen given filled]

/-- The comparison that is made is the one that the leaf is read as. -/
theorem comparison?_eq_some_iff :
    leaf.comparison? value = some comparison ↔
      leaf.Compares value comparison.key comparison.operand := by
  constructor
  · intro made
    cases choice : leaf.control.operators? with
    | none =>
      rw [comparison?_of_plain choice] at made
      split at made
      next => cases made
      next filled =>
        cases made
        exact .value choice (mt Json.isBlank_iff.mpr filled)
    | some operators =>
      rw [comparison?_of_choice choice] at made
      obtain ⟨members, operator, rfl, named, chosen, given, filled, key⟩ :=
        chosenComparison?_eq_some made
      rw [key]
      exact .chosen choice named chosen given filled
  · exact comparison?_of_compares

/-- What becomes of a leaf without a hook's condition, at the target that it ends up with. -/
theorem reads_comparison (truth : Truth) (leaf : FilterLeaf) (target : FieldTarget) (value : Json) :
    Reads truth (∃ key operand, leaf.Compares value key operand)
      (leaf.ComparesAt truth target value)
      ((leaf.comparison? value).map fun comparison =>
        target.constrain (.comparison comparison)) := by
  cases made : leaf.comparison? value with
  | none =>
    rintro ⟨key, operand, compares⟩
    rw [comparison?_of_compares compares] at made
    cases made
  | some comparison =>
    have compares := comparison?_eq_some_iff.mp made
    refine ⟨⟨_, _, compares⟩, ?_⟩
    rw [FieldTarget.holds_constrain]
    constructor
    · intro holds
      exact ⟨_, _, compares, by simpa [FieldCondition.Holds, Comparison.Holds] using holds⟩
    · rintro ⟨key, operand, known, satisfied⟩
      rw [comparison?_of_compares known] at made
      cases made
      simpa [FieldCondition.Holds, Comparison.Holds] using satisfied

theorem reads_condition? (truth : Truth) (leaf : FilterLeaf) (value : Json) :
    Reads truth (leaf.Active value) (leaf.Meaning truth value) (leaf.condition? value) := by
  unfold condition? outcome Active Meaning
  cases leaf.hook with
  | none => exact reads_comparison truth leaf _ _
  | some hook =>
    dsimp only
    cases hook value with
    | condition condition => exact ⟨trivial, Iff.rfl⟩
    | override target replacement => exact reads_comparison truth leaf _ _

end FilterLeaf

namespace FormState

/-- The results of the children's folds are read as the children. -/
abbrev ReadChildren (truth : Truth) :=
  FoldedChildren fun state expression result =>
    Reads truth (state.Active expression) (state.Meaning truth expression) result

variable {truth : Truth} {children : List FormState} {filters : List FilterExpr}
  {results : List (Option Condition)}

theorem anyActive_iff (read : ReadChildren truth children filters results) :
    AnyActive children filters ↔ results.filterMap id ≠ [] := by
  induction read with
  | nil => simp [AnyActive]
  | @cons child filter result rest others results first later ih =>
    cases result with
    | none =>
      have idle : ¬ child.Active filter := first
      simp [AnyActive, idle, ih]
    | some condition => simp [AnyActive, first.1]

theorem everyActiveMeans_iff (read : ReadChildren truth children filters results) :
    EveryActiveMeans truth children filters ↔
      ∀ condition ∈ results.filterMap id, condition.Holds truth [] := by
  induction read with
  | nil => simp [EveryActiveMeans]
  | @cons child filter result rest others results first later ih =>
    cases result with
    | none =>
      have idle : ¬ child.Active filter := first
      simp [EveryActiveMeans, idle, ih]
    | some condition =>
      obtain ⟨active, means⟩ := first
      simp [EveryActiveMeans, active, ← means, ih]

theorem someActiveMeans_iff (read : ReadChildren truth children filters results) :
    SomeActiveMeans truth children filters ↔
      ∃ condition ∈ results.filterMap id, condition.Holds truth [] := by
  induction read with
  | nil => simp [SomeActiveMeans]
  | @cons child filter result rest others results first later ih =>
    cases result with
    | none =>
      have idle : ¬ child.Active filter := first
      simp [SomeActiveMeans, idle, ih]
    | some condition =>
      obtain ⟨active, means⟩ := first
      simp [SomeActiveMeans, active, ← means, ih]

/-- A combination of nothing is inactive, any other has the meaning of its combined parts. -/
theorem reads_combine? {active meaning : Prop} {combine : List Condition → Condition}
    (some : active ↔ results.filterMap id ≠ [])
    (means : (combine (results.filterMap id)).Holds truth [] ↔ meaning) :
    Reads truth active meaning (combine? combine results) := by
  unfold combine?
  split
  next none =>
    intro active
    exact some.mp active none
  next => exact ⟨some.mpr (by assumption), means⟩

/-- Each kind of node is compiled to a condition with the node's meaning. -/
theorem conditionVisitor_establishes (truth : Truth) :
    conditionVisitor.Establishes fun state expression result =>
      Reads truth (state.Active expression) (state.Meaning truth expression) result where
  leaf contents value result compiled := by
    cases compiled
    exact FilterLeaf.reads_condition? truth contents value
  and filters children results result read compiled := by
    cases compiled
    apply reads_combine? (anyActive_iff read)
    rw [Condition.holds_and, Meaning, everyActiveMeans_iff read]
  or filters children results result read compiled := by
    cases compiled
    apply reads_combine? (anyActive_iff read)
    rw [Condition.holds_or, Meaning, someActiveMeans_iff read]
  not filter child inner result read compiled := by
    cases compiled
    cases inner with
    | none => exact read
    | some condition =>
      obtain ⟨active, means⟩ := read
      exact ⟨active, by rw [Condition.holds_not, Meaning, means]⟩

theorem reads_condition? {truth : Truth} {state : FormState} {expression : FilterExpr}
    {result : Option Condition} (compiled : state.condition? expression = .ok result) :
    Reads truth (state.Active expression) (state.Meaning truth expression) result :=
  fold_belongs (conditionVisitor_establishes truth) state expression result compiled

end FormState

namespace FormStates

/-- What a form says about the rows: the meanings of all active states whose filter is known. -/
def Meaning (truth : Truth) (schema : FilterSchema) (states : FormStates) : Prop :=
  ∀ id state filter, (id, state) ∈ states → schema.filter? id = some filter →
    state.Active filter.expression → state.Meaning truth filter.expression

variable {schema : FilterSchema} {states : FormStates} {conditions : List Condition}

/-- What holds of the compiled conditions is told by the states, if it is for each of them. -/
theorem forall_mem_activeConditions_iff {property : Condition → Prop}
    {holds : FormState → FilterExpr → Prop}
    (each : ∀ state expression result, state.condition? expression = .ok result →
      ((∀ condition ∈ result, property condition) ↔ holds state expression))
    (compiled : states.activeConditions schema = .ok conditions) :
    (∀ condition ∈ conditions, property condition) ↔ EachKnown schema holds states := by
  induction states generalizing conditions with
  | nil =>
    cases compiled
    simp [EachKnown]
  | cons entry rest ih =>
    obtain ⟨id, state⟩ := entry
    rw [eachKnown_cons]
    cases known : schema.filter? id with
    | none =>
      rw [activeConditions_unknown known] at compiled
      simp [ih compiled]
    | some filter =>
      rw [activeConditions_known known] at compiled
      obtain ⟨first, here, compiled⟩ := bind_eq_ok.mp compiled
      obtain ⟨others, there, compiled⟩ := bind_eq_ok.mp compiled
      cases compiled
      rw [List.forall_mem_append, ih there]
      have own := each state filter.expression first here
      exact and_congr_left' (by simpa using own)

/-- Together the compiled conditions say what the form says. -/
theorem activeConditions_hold {truth : Truth}
    (compiled : states.activeConditions schema = .ok conditions) :
    (∀ condition ∈ conditions, condition.Holds truth []) ↔ states.Meaning truth schema := by
  change _ ↔ EachKnown schema (fun state expression =>
    state.Active expression → state.Meaning truth expression) states
  refine forall_mem_activeConditions_iff (fun state expression result here => ?_) compiled
  have read : Reads truth _ _ result := FormState.reads_condition? here
  cases result with
  | none =>
    have idle : ¬ state.Active expression := read
    simp [idle]
  | some condition =>
    obtain ⟨active, means⟩ := read
    simp [active, means]

/-- The condition built from a form is true exactly where the form says so, whatever the hooks of
its leaves and whichever comparisons hold. -/
theorem condition_holds_iff_meaning (truth : Truth) (schema : FilterSchema) (states : FormStates)
    (condition : Condition) (built : states.condition schema = .ok condition) :
    condition.Holds truth [] ↔ states.Meaning truth schema := by
  obtain ⟨conditions, compiled, built⟩ := bind_eq_ok.mp built
  cases built
  rw [Condition.holds_all, activeConditions_hold compiled]

/-- A text in either of two places, or none of the chosen tags. -/
def alternatives : FilterSchema :=
  ⟨[], [⟨"place", "Place",
    .or [.leaf (.plain .equals (.anyOf ["home.city", "office"]) (.text none none)),
      .not (.leaf (.plain .isIn (.one "tags") (.multiselect [] none)))], none, false⟩]⟩

/-- No tag is chosen, and one entry has no filter. -/
def oneAlternative : FormStates :=
  [("gone", .leaf .null), ("place", .or [.leaf (.string "Bath"), .not (.leaf (.array []))])]

def eitherPlace : Condition :=
  .or [.or [.nest "home.city" (.comparison ⟨.eq, .string "Bath"⟩),
    .nest "office" (.comparison ⟨.eq, .string "Bath"⟩)]]

theorem eitherPlace_holds_iff_meaning :
    oneAlternative.condition alternatives = .ok eitherPlace ∧
      (eitherPlace.Holds (fun path _ _ => path = ["office"]) [] ↔
        oneAlternative.Meaning (fun path _ _ => path = ["office"]) alternatives) := by
  have built : oneAlternative.condition alternatives = .ok eitherPlace := by rfl
  exact ⟨built, condition_holds_iff_meaning _ _ _ _ built⟩

end FormStates

end GridQuery
