import GridQuery.Proofs.Condition.Pairing
import GridQuery.Proofs.Form.AcceptedForms
import GridQuery.Proofs.Form.Merging

/-!
Suggesting what is there already. A state is accepted as it is exactly if it has the shape of its
expression and every leaf holds a value in its form, so what was accepted once is accepted again
without a change.
-/

namespace GridQuery

namespace FilterLeaf

variable {leaf : FilterLeaf} {suggestion value : Json}

/-- The values that a leaf takes over as they are are those in its form. -/
theorem acceptValue_eq_self_iff : leaf.acceptValue value = value ↔ leaf.TakesForm value := by
  constructor
  · intro same
    rw [← same]
    exact takesForm_acceptValue
  · intro formed
    cases choice : leaf.control.operators? with
    | some operators =>
      obtain ⟨members, operator, rfl, named⟩ := (takesForm_of_choice choice).mp formed
      rw [acceptValue_of_choice choice, Json.get?, named]
    | none =>
      rw [acceptValue_of_plain choice]
      refine if_neg fun wraps => ?_
      simp only [Bool.and_eq_true, Bool.not_eq_true'] at wraps
      obtain ⟨⟨tests, single⟩, filled⟩ := wraps
      rcases (takesForm_of_plain choice).mp formed tests with list | blank
      · exact Bool.false_ne_true (single.symm.trans list)
      · exact Bool.false_ne_true (filled.symm.trans (Json.isBlank_iff.mpr blank))

/-- Only alternatives for a test of membership are made a list. -/
theorem Accepts.takesForm (accepts : leaf.Accepts suggestion value)
    (plain : leaf.operator.isMembership = true → leaf.control.operators? = none) :
    leaf.TakesForm value := by
  refine accepts.takesForm_iff.mpr fun lists => ?_
  obtain ⟨choice, isOr⟩ := lists
  cases accepts with
  | value kind => exact absurd (Option.some.inj (kind.symm.trans isOr)) (by decide)
  | negated kind => exact absurd (Option.some.inj (kind.symm.trans isOr)) (by decide)
  | alternatives _ tests => exact choice (plain tests)

end FilterLeaf

namespace FilterExpr

/-- No test of membership takes a choice of operators. -/
def PlainMemberships (expression : FilterExpr) : Prop :=
  ∀ leaf ∈ expression.leaves, leaf.operator.isMembership = true → leaf.control.operators? = none

variable {expression : FilterExpr} {suggestion : Json} {state : FormState}

theorem accept?_leaf_toJson (contents : FilterLeaf) (value : Json) :
    (leaf contents).accept? (FormState.leaf value).toJson =
      some (.leaf (contents.acceptValue value)) :=
  rfl

theorem accept?_and_toJson (filters : List FilterExpr) (children : List FormState) :
    (and filters).accept? (FormState.and children).toJson =
      (acceptList? filters (FormState.listToJson children)).map .and :=
  Option.map_eq_bind.symm

theorem accept?_or_toJson (filters : List FilterExpr) (children : List FormState) :
    (or filters).accept? (FormState.or children).toJson =
      (acceptList? filters (FormState.listToJson children)).map .or :=
  Option.map_eq_bind.symm

theorem accept?_not_toJson (filter : FilterExpr) (child : FormState) :
    filter.not.accept? child.not.toJson = (filter.accept? child.toJson).map .not :=
  Option.map_eq_bind.symm

mutual

/-- A state is taken over as it is exactly if it mirrors the expression and its values have the form
that the leaves ask for. -/
theorem accept?_toJson_iff : ∀ (expression : FilterExpr) (state : FormState),
    expression.accept? state.toJson = some state ↔
      state.Mirrors expression ∧ state.EachLeaf FilterLeaf.TakesForm expression
  | .leaf contents, state => by
    cases state with
    | leaf value =>
      rw [accept?_leaf_toJson, Option.some.injEq, FormState.leaf.injEq,
        FilterLeaf.acceptValue_eq_self_iff]
      exact (and_iff_right trivial).symm
    | and | or | not =>
      refine iff_of_false (fun accepted => ?_) fun mirrors => mirrors.1
      rw [accept?, Option.map_eq_some_iff] at accepted
      obtain ⟨_, _, other⟩ := accepted
      cases other
  | .and filters, state => by
    cases state with
    | and children =>
      rw [accept?_and_toJson, Option.map_eq_some_iff]
      simp only [FormState.and.injEq, exists_eq_right]
      exact acceptList?_toJson_iff filters children
    | leaf | or | not => exact iff_of_false nofun fun mirrors => mirrors.1
  | .or filters, state => by
    cases state with
    | or children =>
      rw [accept?_or_toJson, Option.map_eq_some_iff]
      simp only [FormState.or.injEq, exists_eq_right]
      exact acceptList?_toJson_iff filters children
    | leaf | and | not => exact iff_of_false nofun fun mirrors => mirrors.1
  | .not filter, state => by
    cases state with
    | not child =>
      rw [accept?_not_toJson, Option.map_eq_some_iff]
      simp only [FormState.not.injEq, exists_eq_right]
      exact accept?_toJson_iff filter child
    | leaf | and | or => exact iff_of_false nofun fun mirrors => mirrors.1
termination_by structural expression => expression

theorem acceptList?_toJson_iff : ∀ (filters : List FilterExpr) (children : List FormState),
    acceptList? filters (FormState.listToJson children) = some children ↔
      FormState.AllMirror children filters ∧
        FormState.EachLeafOfList FilterLeaf.TakesForm children filters
  | [], [] => iff_of_true rfl ⟨trivial, trivial⟩
  | [], _ :: _ => iff_of_false nofun fun mirrors => mirrors.1
  | _ :: _, [] => iff_of_false nofun fun mirrors => mirrors.1
  | filter :: rest, child :: others => by
    have here := accept?_toJson_iff filter child
    have there := acceptList?_toJson_iff rest others
    constructor
    · intro accepted
      obtain ⟨_, _, _, _, split, first, later, same⟩ := acceptList?_cons accepted
      cases split
      cases same
      obtain ⟨mirrors, formed⟩ := here.mp first
      obtain ⟨allMirror, allFormed⟩ := there.mp later
      exact ⟨⟨mirrors, allMirror⟩, formed, allFormed⟩
    · intro ⟨⟨mirrors, allMirror⟩, formed, allFormed⟩
      rw [FormState.listToJson, acceptList?, here.mpr ⟨mirrors, formed⟩,
        there.mpr ⟨allMirror, allFormed⟩]
      rfl

end

theorem exists_accepts (accepted : expression.accept? suggestion = some state) :
    ∀ pair ∈ state.pairedLeaves expression, ∃ part, pair.1.Accepts part pair.2 := by
  have agree : ∀ offer ∈ expression.offers suggestion, ∀ pair, TakenFrom offer pair →
      (True ↔ ∃ part, pair.1.Accepts part pair.2) := by
    intro offer _ pair taken
    obtain ⟨same, accepts⟩ := taken
    rw [same]
    exact iff_of_true trivial ⟨offer.2, accepts⟩
  exact (forall₂_forall_iff (takenFrom_offers accepted) agree).mp fun _ _ => trivial

/-- What is accepted holds values in the form of its leaves, so it is accepted as it is. -/
theorem accept?_again (plain : expression.PlainMemberships)
    (accepted : expression.accept? suggestion = some state) :
    expression.accept? state.toJson = some state := by
  have mirrors := mirrors_of_accept? accepted
  refine (accept?_toJson_iff expression state).mpr ⟨mirrors, FormState.eachLeaf_iff.mpr ?_⟩
  intro pair member
  have inside : pair.1 ∈ expression.leaves := by
    rw [← mirrors.leaves]
    exact List.mem_map_of_mem member
  obtain ⟨part, accepts⟩ := exists_accepts accepted pair member
  exact accepts.takesForm (plain pair.1 inside)

end FilterExpr

namespace FormStates

variable {schema : FilterSchema} {states : FormStates} {id : String} {state : FormState}
  {members : List (String × Json)}

/-- Puts the states into themselves, as a suggestion. -/
def resubmit (schema : FilterSchema) (states : FormStates) : FormStates :=
  states.merge schema states.toJson

/-- A state that its filter accepts as it is stays when the states are resubmitted. -/
theorem find?_resubmit (ascending : Named.Ascending states)
    (held : Named.find? id states = some state)
    (again : accepted? schema id state.toJson = some state) :
    Named.find? id (states.resubmit schema) = some state := by
  have distinct : Named.Ascending (states.map fun entry => (entry.1, entry.2.toJson)) :=
    List.pairwise_map.mpr ascending
  rw [resubmit, toJson, find?_merge distinct, Named.find?_map, held, Option.map_some,
    Option.bind_some, again, Option.some_or]

/-- Where no test of membership takes a choice of operators, what is accepted is accepted as it is.
So the states that were merged stay when the result is merged into itself. -/
theorem accepted_resubmitted :
    (∀ (expression : FilterExpr) (suggestion : Json) (state : FormState),
      expression.PlainMemberships → expression.accept? suggestion = some state →
        expression.accept? state.toJson = some state) ∧
    ∀ (schema : FilterSchema) (states : FormStates) (members : List (String × Json)),
      Named.Ascending states → Named.Ascending members → ∀ id state,
        (∀ filter, schema.filter? id = some filter → filter.expression.PlainMemberships) →
        Suggests schema members id state →
          Named.find? id (states.merge schema (.object members)) = some state ∧
          Named.find? id ((states.merge schema (.object members)).resubmit schema) =
            some state := by
  constructor
  · intro expression suggestion state plain accepted
    exact FilterExpr.accept?_again plain accepted
  · intro schema states members ascending distinct id state plain suggested
    have held : Named.find? id (states.merge schema (.object members)) = some state := by
      rw [find?_merge distinct, suggests_iff.mp suggested, Option.some_or]
    refine ⟨held, find?_resubmit (merge_ascending ascending) held ?_⟩
    obtain ⟨suggestion, filter, _, known, accepted⟩ := suggested
    rw [accepted?, known]
    exact FilterExpr.accept?_again (plain filter known) accepted

/-- Two tests of membership, and a choice of operators for a comparison. -/
def reviewFilters : FilterExpr :=
  .and [.leaf (.plain .isIn (.one "tag") (.text none none)),
    .leaf (.plain .notIn (.one "tag") (.text none none)),
    .leaf (.plain .equals (.one "score")
      (.operatorChoice [⟨"at least", .string "_gte"⟩] (.number none none none) none))]

def reviewSchema : FilterSchema :=
  ⟨[], [⟨"review", "Review", reviewFilters, none, false⟩]⟩

/-- One value for a list, a negated value and a bare operand. -/
def suggestedReview : Json :=
  (FormState.and [.leaf (.string "new"), .not (.leaf (.string "old")), .leaf (.int 5)]).toJson

def reviewSuggestion : List (String × Json) :=
  [("review", suggestedReview)]

def reviewAccepted : FormState :=
  .and [.leaf (.array [.string "new"]), .leaf (.array [.string "old"]),
    .leaf (operatorPair (.string "_gte") (.int 5))]

theorem review_resubmitted :
    reviewFilters.PlainMemberships ∧
      Suggests reviewSchema reviewSuggestion "review" reviewAccepted ∧
      reviewFilters.accept? reviewAccepted.toJson = some reviewAccepted ∧
      Named.find? "review" (resubmit reviewSchema
        (merge reviewSchema [("other", .leaf .null)] (.object reviewSuggestion))) =
          some reviewAccepted := by
  obtain ⟨again, kept⟩ := accepted_resubmitted
  have plain : reviewFilters.PlainMemberships :=
    List.forall_mem_cons.mpr ⟨fun _ => rfl, List.forall_mem_cons.mpr ⟨fun _ => rfl,
      List.forall_mem_singleton.mpr nofun⟩⟩
  have known : ∀ filter, reviewSchema.filter? "review" = some filter →
      filter.expression.PlainMemberships := by
    intro filter known
    cases known
    exact plain
  have suggested : Suggests reviewSchema reviewSuggestion "review" reviewAccepted :=
    ⟨_, _, rfl, rfl, rfl⟩
  exact ⟨plain, suggested, again _ suggestedReview _ plain rfl,
    (kept reviewSchema _ reviewSuggestion (List.pairwise_singleton ..)
      (List.pairwise_singleton ..) _ _ known suggested).2⟩

end FormStates

end GridQuery
