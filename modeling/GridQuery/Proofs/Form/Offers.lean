import GridQuery.Form.Suggestion
import GridQuery.Proofs.Form.Fold

/-!
What an accepted suggestion offers to the leaves of an expression. Each leaf of the state holds what
its own part of the suggestion comes to, so what is accepted can be told leaf by leaf.
-/

namespace GridQuery

theorem Json.items?_eq_some {value : Json} {items : List Json} :
    value.items? = some items ↔ value = .array items := by
  cases value with
  | array members => rw [items?, Option.some.injEq, Json.array.injEq]
  | _ => exact iff_of_false nofun nofun

/-- What a suggestion holds for the children of a node. -/
def suggestedParts (suggestion : Json) : List Json :=
  ((suggestion.get? "children").bind Json.items?).getD []

theorem suggestedParts_of_listed {suggestion : Json} {items : List Json}
    (listed : suggestion.get? "children" = some (.array items)) :
    suggestedParts suggestion = items := by
  rw [suggestedParts, listed]
  rfl

namespace FilterLeaf

/-- A suggestion for a leaf is a leaf, a negated leaf or, for a test of membership, a list of
alternatives. -/
inductive Accepts (leaf : FilterLeaf) (suggestion : Json) : Json → Prop
  | value (kind : suggestedKind? suggestion = some "leaf") :
      Accepts leaf suggestion (leaf.acceptValue (suggestedValue suggestion))
  | negated {inner value : Json} (kind : suggestedKind? suggestion = some "not")
      (under : suggestion.get? "child" = some inner)
      (plain : suggestedKind? inner = some "leaf")
      (folded : leaf.acceptNegated? (suggestedValue inner) = some value) :
      Accepts leaf suggestion value
  | alternatives {items values : List Json} (kind : suggestedKind? suggestion = some "or")
      (tests : leaf.operator.isMembership = true)
      (listed : suggestion.get? "children" = some (.array items))
      (gathered : alternatives? items = some values) : Accepts leaf suggestion (.array values)

variable {leaf : FilterLeaf} {suggestion value : Json}

theorem acceptAlternatives?_eq_some (accepted : leaf.acceptAlternatives? suggestion = some value) :
    leaf.operator.isMembership = true ∧ ∃ items values,
      suggestion.get? "children" = some (.array items) ∧ alternatives? items = some values ∧
      .array values = value := by
  rw [acceptAlternatives?] at accepted
  split at accepted
  next => cases accepted
  next tests =>
    obtain ⟨listed, under, accepted⟩ := Option.bind_eq_some_iff.mp accepted
    obtain ⟨items, isArray, accepted⟩ := Option.bind_eq_some_iff.mp accepted
    obtain ⟨values, gathered, accepted⟩ := Option.bind_eq_some_iff.mp accepted
    rw [Json.items?_eq_some.mp isArray] at under
    exact ⟨by simpa using tests, items, values, under, gathered, Option.some.inj accepted⟩

theorem accepts_of_acceptLeaf? (accepted : leaf.acceptLeaf? suggestion = some value) :
    leaf.Accepts suggestion value := by
  obtain ⟨kind, found, accepted⟩ := Option.bind_eq_some_iff.mp accepted
  split at accepted
  next isLeaf =>
    subst isLeaf
    cases accepted
    exact .value found
  split at accepted
  next isNot =>
    subst isNot
    obtain ⟨inner, under, accepted⟩ := Option.bind_eq_some_iff.mp accepted
    obtain ⟨plain, folded⟩ := Option.ite_none_right_eq_some.mp accepted
    exact .negated found under plain folded
  split at accepted
  next isOr =>
    subst isOr
    obtain ⟨tests, items, values, listed, gathered, rfl⟩ := acceptAlternatives?_eq_some accepted
    exact .alternatives found tests listed gathered
  next => cases accepted

theorem acceptValue_of_plain (plain : leaf.control.operators? = none) : leaf.acceptValue value =
    if leaf.operator.isMembership && !value.isArray && !value.isBlank then .array [value]
    else value := by
  unfold acceptValue
  split
  next control => rw [control] at plain; cases plain
  next => rfl

theorem acceptValue_of_choice {operators : List Choice}
    (choice : leaf.control.operators? = some operators) : leaf.acceptValue value =
      match value.get? "operator" with
      | some _ => value
      | none => operatorPair (leaf.control.firstOperator.getD .null) value := by
  unfold acceptValue
  split
  next => rfl
  next other => cases control : leaf.control <;> simp_all [Control.operators?]

theorem acceptNegated?_of_plain (plain : leaf.control.operators? = none) :
    leaf.acceptNegated? value =
      match leaf.operator with
      | .notEquals => some value
      | .notIn => some (if value.isArray then value else .array [value])
      | _ => none := by
  unfold acceptNegated?
  split
  next control => rw [control] at plain; cases plain
  next => rfl

theorem acceptNegated?_of_choice {operators : List Choice}
    (choice : leaf.control.operators? = some operators) {kept : Json}
    (folded : leaf.acceptNegated? value = some kept) :
    kept = operatorPair (.string "_neq") value := by
  unfold acceptNegated? at folded
  split at folded
  next => exact (Option.some.inj (Option.ite_none_right_eq_some.mp folded).2).symm
  next other => cases control : leaf.control <;> simp_all [Control.operators?]

end FilterLeaf

namespace FilterExpr

mutual

/-- The leaves of the expression from left to right, each with the part of the suggestion at its
place. -/
def offers : FilterExpr → Json → List (FilterLeaf × Json)
  | .leaf contents, suggestion => [(contents, suggestion)]
  | .and filters, suggestion => offersOfList filters (suggestedParts suggestion)
  | .or filters, suggestion => offersOfList filters (suggestedParts suggestion)
  | .not filter, suggestion => filter.offers (suggestion.getOrNull "child")
termination_by structural expression => expression

def offersOfList : List FilterExpr → List Json → List (FilterLeaf × Json)
  | filter :: rest, suggestion :: others => filter.offers suggestion ++ offersOfList rest others
  | _, _ => []

end

variable {filters : List FilterExpr} {filter : FilterExpr} {suggestion : Json} {state : FormState}

/-- Conjunctions and alternatives are accepted child by child. -/
theorem exists_listed {combine : List FormState → FormState} {tag : String}
    (accepted : (if suggestedKind? suggestion = some tag then do
        return combine (← acceptList? filters (← (← suggestion.get? "children").items?))
      else none) = some state) :
    suggestedKind? suggestion = some tag ∧ ∃ items children,
      suggestion.get? "children" = some (.array items) ∧
      acceptList? filters items = some children ∧ combine children = state := by
  obtain ⟨kind, accepted⟩ := Option.ite_none_right_eq_some.mp accepted
  obtain ⟨listed, found, accepted⟩ := Option.bind_eq_some_iff.mp accepted
  obtain ⟨items, isArray, accepted⟩ := Option.bind_eq_some_iff.mp accepted
  obtain ⟨children, each, accepted⟩ := Option.bind_eq_some_iff.mp accepted
  rw [Json.items?_eq_some.mp isArray] at found
  exact ⟨kind, items, children, found, each, Option.some.inj accepted⟩

theorem accept?_and (accepted : (and filters).accept? suggestion = some state) :
    suggestedKind? suggestion = some "and" ∧ ∃ items children,
      suggestion.get? "children" = some (.array items) ∧
      acceptList? filters items = some children ∧ FormState.and children = state := by
  rw [accept?] at accepted
  exact exists_listed accepted

theorem accept?_or (accepted : (or filters).accept? suggestion = some state) :
    suggestedKind? suggestion = some "or" ∧ ∃ items children,
      suggestion.get? "children" = some (.array items) ∧
      acceptList? filters items = some children ∧ FormState.or children = state := by
  rw [accept?] at accepted
  exact exists_listed accepted

theorem accept?_not (accepted : filter.not.accept? suggestion = some state) :
    suggestedKind? suggestion = some "not" ∧ ∃ inner child,
      suggestion.get? "child" = some inner ∧ filter.accept? inner = some child ∧
      child.not = state := by
  rw [accept?, Option.ite_none_right_eq_some] at accepted
  obtain ⟨kind, accepted⟩ := accepted
  obtain ⟨inner, found, accepted⟩ := Option.bind_eq_some_iff.mp accepted
  obtain ⟨child, below, accepted⟩ := Option.bind_eq_some_iff.mp accepted
  cases accepted
  exact ⟨kind, inner, child, found, below, rfl⟩

theorem acceptList?_cons {filter : FilterExpr} {rest : List FilterExpr} {items : List Json}
    {children : List FormState} (accepted : acceptList? (filter :: rest) items = some children) :
    ∃ first later state others, items = first :: later ∧ filter.accept? first = some state ∧
      acceptList? rest later = some others ∧ children = state :: others := by
  cases items with
  | nil => cases accepted
  | cons first later =>
    obtain ⟨state, here, accepted⟩ := Option.bind_eq_some_iff.mp accepted
    obtain ⟨others, there, accepted⟩ := Option.bind_eq_some_iff.mp accepted
    cases accepted
    exact ⟨first, later, state, others, rfl, here, there, rfl⟩

/-- The leaf of a state holds what is offered to it. -/
def TakenFrom (offer pair : FilterLeaf × Json) : Prop :=
  pair.1 = offer.1 ∧ offer.1.Accepts offer.2 pair.2

mutual

/-- The leaves of an accepted state hold what they are offered. -/
theorem takenFrom_offers : ∀ {expression : FilterExpr} {suggestion : Json} {state : FormState},
    expression.accept? suggestion = some state →
      List.Forall₂ TakenFrom (expression.offers suggestion) (state.pairedLeaves expression)
  | .leaf contents, suggestion, state, accepted => by
    rw [accept?, Option.map_eq_some_iff] at accepted
    obtain ⟨value, accepted, rfl⟩ := accepted
    exact .cons ⟨rfl, FilterLeaf.accepts_of_acceptLeaf? accepted⟩ .nil
  | .and filters, suggestion, state, accepted => by
    obtain ⟨_, items, children, listed, each, rfl⟩ := accept?_and accepted
    rw [offers, suggestedParts_of_listed listed]
    exact takenFrom_offersOfList each
  | .or filters, suggestion, state, accepted => by
    obtain ⟨_, items, children, listed, each, rfl⟩ := accept?_or accepted
    rw [offers, suggestedParts_of_listed listed]
    exact takenFrom_offersOfList each
  | .not filter, suggestion, state, accepted => by
    obtain ⟨_, inner, child, under, below, rfl⟩ := accept?_not accepted
    have given : suggestion.getOrNull "child" = inner := by
      rw [Json.getOrNull, under]
      rfl
    rw [offers, given]
    exact takenFrom_offers below

theorem takenFrom_offersOfList : ∀ {filters : List FilterExpr} {suggestions : List Json}
    {children : List FormState}, acceptList? filters suggestions = some children →
      List.Forall₂ TakenFrom (offersOfList filters suggestions)
        (FormState.pairedLeavesOfList children filters)
  | [], [], _, accepted => by
    cases accepted
    exact .nil
  | [], _ :: _, _, accepted => by cases accepted
  | filter :: rest, suggestions, children, accepted => by
    obtain ⟨first, later, state, others, rfl, here, there, rfl⟩ := acceptList?_cons accepted
    exact List.rel_append (takenFrom_offers here) (takenFrom_offersOfList there)

end

end FilterExpr

end GridQuery
