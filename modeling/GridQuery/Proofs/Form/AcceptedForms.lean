import GridQuery.Proofs.Form.Meaning
import GridQuery.Proofs.Form.Merging

/-!
The form of accepted values. A leaf with an operator choice should hold a pair with an operator, and
a test of membership a list or nothing. Accepted suggestions have this form but for one kind: what
is suggested as alternatives is made a list even where the control takes a pair.
-/

namespace GridQuery

namespace FilterLeaf

/-- The value has the form in which the leaf's control and operator are read. -/
def TakesForm (leaf : FilterLeaf) (value : Json) : Prop :=
  match leaf.control.operators? with
  | some _ => ∃ members operator, value = .object members ∧
      Named.find? "operator" members = some operator
  | none => leaf.operator.isMembership = true → value.isArray = true ∨ value.Blank

/-- Alternatives are offered to a control that takes a pair of an operator and an operand. -/
def ListsOperands (leaf : FilterLeaf) (suggestion : Json) : Prop :=
  leaf.control.operators? ≠ none ∧ suggestedKind? suggestion = some "or"

variable {leaf : FilterLeaf} {suggestion value : Json}

theorem takesForm_of_choice {operators : List Choice}
    (choice : leaf.control.operators? = some operators) : leaf.TakesForm value ↔
      ∃ members operator, value = .object members ∧
        Named.find? "operator" members = some operator := by
  rw [TakesForm, choice]

theorem takesForm_of_plain (plain : leaf.control.operators? = none) : leaf.TakesForm value ↔
    (leaf.operator.isMembership = true → value.isArray = true ∨ value.Blank) := by
  rw [TakesForm, plain]

theorem takesForm_operatorPair {operators : List Choice} {operator operand : Json}
    (choice : leaf.control.operators? = some operators) :
    leaf.TakesForm (operatorPair operator operand) :=
  (takesForm_of_choice choice).mpr ⟨_, operator, rfl, rfl⟩

theorem takesForm_acceptValue : leaf.TakesForm (leaf.acceptValue value) := by
  cases choice : leaf.control.operators? with
  | some operators =>
    rw [acceptValue_of_choice choice]
    split
    next operator named =>
      rw [takesForm_of_choice choice]
      cases value with
      | object members => exact ⟨members, operator, rfl, named⟩
      | _ => cases named
    next => exact takesForm_operatorPair choice
  | none =>
    rw [acceptValue_of_plain choice, takesForm_of_plain choice]
    intro tests
    split
    next => exact .inl rfl
    next kept =>
      rw [tests, Bool.true_and, Bool.and_eq_true, Bool.not_eq_true', Bool.not_eq_true',
        not_and_or, Bool.not_eq_false, Bool.not_eq_false, Json.isBlank_iff] at kept
      exact kept

theorem takesForm_acceptNegated? {kept : Json}
    (folded : leaf.acceptNegated? value = some kept) : leaf.TakesForm kept := by
  cases choice : leaf.control.operators? with
  | some operators =>
    rw [acceptNegated?_of_choice choice folded]
    exact takesForm_operatorPair choice
  | none =>
    rw [acceptNegated?_of_plain choice] at folded
    rw [takesForm_of_plain choice]
    intro tests
    split at folded
    next operator => simp [operator, FilterOperator.isMembership] at tests
    next =>
      cases folded
      split
      next list => exact .inl list
      next => exact .inl rfl
    next => cases folded

/-- A leaf takes any accepted value in its form, except alternatives for an operator choice. -/
theorem Accepts.takesForm_iff (accepts : leaf.Accepts suggestion value) :
    leaf.TakesForm value ↔ ¬ leaf.ListsOperands suggestion := by
  have other {tag : String} (kind : suggestedKind? suggestion = some tag) (differs : tag ≠ "or") :
      ¬ leaf.ListsOperands suggestion := by
    rintro ⟨_, isOr⟩
    exact differs (Option.some.inj (kind.symm.trans isOr))
  cases accepts with
  | value kind => exact iff_of_true takesForm_acceptValue (other kind (by decide))
  | negated kind _ _ folded =>
    exact iff_of_true (takesForm_acceptNegated? folded) (other kind (by decide))
  | alternatives kind tests listed gathered =>
    cases choice : leaf.control.operators? with
    | some operators =>
      have lists : leaf.ListsOperands suggestion := ⟨by rw [choice]; nofun, kind⟩
      rw [takesForm_of_choice choice]
      refine iff_of_false ?_ (not_not_intro lists)
      rintro ⟨members, operator, isObject, _⟩
      cases isObject
    | none =>
      rw [takesForm_of_plain choice]
      exact iff_of_true (fun _ => .inl rfl) fun lists => lists.1 choice

end FilterLeaf

namespace FilterExpr

/-- The leaf holds a value in its form, unless alternatives were offered for an operator choice. -/
def TakenInForm (offer pair : FilterLeaf × Json) : Prop :=
  pair.1 = offer.1 ∧ (pair.1.TakesForm pair.2 ↔ ¬ offer.1.ListsOperands offer.2)

theorem TakenFrom.takenInForm {offer pair : FilterLeaf × Json} (taken : TakenFrom offer pair) :
    TakenInForm offer pair := by
  obtain ⟨same, accepts⟩ := taken
  rw [TakenInForm, same]
  exact ⟨rfl, accepts.takesForm_iff⟩

/-- An accepted state has a value for each leaf of the expression. All the values have the form that
control and operator of their leaves ask for, except where alternatives are suggested for an
operator choice: there they are made a list, which is no pair. -/
theorem accepted_in_form (expression : FilterExpr) (suggestion : Json) (state : FormState)
    (accepted : expression.accept? suggestion = some state) :
    (state.pairedLeaves expression).map Prod.fst = expression.leaves ∧
      List.Forall₂ TakenInForm (expression.offers suggestion) (state.pairedLeaves expression) :=
  ⟨(mirrors_of_accept? accepted).leaves,
    (takenFrom_offers accepted).imp fun _ _ => TakenFrom.takenInForm⟩

/-- A test of membership with a choice of operators. -/
def scoreLeaf : FilterLeaf :=
  .plain .isIn (.one "score")
    (.operatorChoice [⟨"any of", .string "_in"⟩] (.number none none none) none)

def scores : FilterExpr :=
  .and [.leaf scoreLeaf, .leaf scoreLeaf, .leaf (.plain .notIn (.one "tag") (.text none none))]

/-- An operand, alternatives and a negated value. -/
def scoreSuggestion : Json :=
  (FormState.and [.leaf (.int 5), .or [.leaf (.int 5)], .not (.leaf (.string "old"))]).toJson

def acceptedScores : FormState :=
  .and [.leaf (operatorPair (.string "_in") (.int 5)), .leaf (.array [.int 5]),
    .leaf (.array [.string "old"])]

theorem scores_in_form :
    scores.accept? scoreSuggestion = some acceptedScores ∧
      (acceptedScores.pairedLeaves scores).map Prod.fst = scores.leaves ∧
      List.Forall₂ TakenInForm (scores.offers scoreSuggestion)
        (acceptedScores.pairedLeaves scores) :=
  ⟨rfl, accepted_in_form scores scoreSuggestion acceptedScores rfl⟩

/-- The list takes the place of the pair, and the filter no longer selects anything. -/
theorem scores_listed :
    (leaf scoreLeaf).accept? (FormState.or [.leaf (.int 5)]).toJson =
        some (.leaf (.array [.int 5])) ∧
      scoreLeaf.control.operators? ≠ none ∧ ¬ scoreLeaf.TakesForm (.array [.int 5]) ∧
      (FormState.leaf (.array [.int 5])).condition? (.leaf scoreLeaf) = .ok none := by
  refine ⟨rfl, nofun, ?_, rfl⟩
  rintro ⟨members, operator, isObject, _⟩
  cases isObject

end FilterExpr

end GridQuery
