import GridQuery.Proofs.Form.Offers
import GridQuery.Proofs.Form.Reload

/-!
Merging suggestions into states, id by id. A suggestion replaces the state of its filter if it is
accepted, and touches nothing else. What is accepted has the kinds and the numbers of children of
the filter's expression at every level, so checking its shape never turns it down.
-/

namespace GridQuery

namespace FormState

mutual

/-- At every level the state has the kind of the expression and as many children. -/
def Mirrors : FormState → FilterExpr → Prop
  | .leaf _, .leaf _ => True
  | .and children, .and filters => AllMirror children filters
  | .or children, .or filters => AllMirror children filters
  | .not child, .not filter => child.Mirrors filter
  | _, _ => False
termination_by structural state => state

def AllMirror : List FormState → List FilterExpr → Prop
  | [], [] => True
  | child :: rest, filter :: others => child.Mirrors filter ∧ AllMirror rest others
  | _, _ => False

end

mutual

theorem Mirrors.fits : ∀ {state : FormState} {expression : FilterExpr},
    state.Mirrors expression → state.Fits expression
  | .leaf _, .leaf _, _ => rfl
  | .and _, .and _, mirrors => fits_and_iff.mpr (AllMirror.allFit mirrors 0)
  | .or _, .or _, mirrors => fits_or_iff.mpr (AllMirror.allFit mirrors 0)
  | .not child, .not filter, mirrors => by
    have inner : child.Mirrors filter := mirrors
    exact fits_not_iff.mpr inner.fits
termination_by structural state => state

theorem AllMirror.allFit : ∀ {children : List FormState} {filters : List FilterExpr},
    AllMirror children filters → ∀ index, AllFit index children filters
  | [], [], _, _ => ⟨[], rfl⟩
  | _ :: _, _ :: _, ⟨first, later⟩, index =>
    allFit_cons.mpr ⟨first.fits, AllMirror.allFit later (index + 1)⟩

end

mutual

/-- A state that mirrors an expression has a value for each of its leaves. -/
theorem Mirrors.leaves : ∀ {state : FormState} {expression : FilterExpr},
    state.Mirrors expression →
      (state.pairedLeaves expression).map Prod.fst = expression.leaves
  | .leaf _, .leaf _, _ => rfl
  | .and _, .and _, mirrors => AllMirror.leaves mirrors
  | .or _, .or _, mirrors => AllMirror.leaves mirrors
  | .not child, .not filter, mirrors => by
    have inner : child.Mirrors filter := mirrors
    exact inner.leaves
termination_by structural state => state

theorem AllMirror.leaves : ∀ {children : List FormState} {filters : List FilterExpr},
    AllMirror children filters →
      (pairedLeavesOfList children filters).map Prod.fst = FilterExpr.leavesOfList filters
  | [], [], _ => rfl
  | _ :: _, _ :: _, ⟨first, later⟩ => by
    rw [pairedLeavesOfList, List.map_append, FilterExpr.leavesOfList, first.leaves,
      AllMirror.leaves later]

end

end FormState

namespace FilterExpr

mutual

/-- What a suggestion comes to mirrors the expression. -/
theorem mirrors_of_accept? : ∀ {expression : FilterExpr} {suggestion : Json} {state : FormState},
    expression.accept? suggestion = some state → state.Mirrors expression
  | .leaf contents, suggestion, state, accepted => by
    rw [accept?, Option.map_eq_some_iff] at accepted
    obtain ⟨value, _, rfl⟩ := accepted
    trivial
  | .and filters, suggestion, state, accepted => by
    obtain ⟨_, items, children, _, each, rfl⟩ := accept?_and accepted
    exact allMirror_of_acceptList? each
  | .or filters, suggestion, state, accepted => by
    obtain ⟨_, items, children, _, each, rfl⟩ := accept?_or accepted
    exact allMirror_of_acceptList? each
  | .not filter, suggestion, state, accepted => by
    obtain ⟨_, inner, child, _, below, rfl⟩ := accept?_not accepted
    have mirrors : child.Mirrors filter := mirrors_of_accept? below
    exact mirrors

theorem allMirror_of_acceptList? : ∀ {filters : List FilterExpr} {suggestions : List Json}
    {children : List FormState}, acceptList? filters suggestions = some children →
      FormState.AllMirror children filters
  | [], [], children, accepted => by
    cases accepted
    trivial
  | [], _ :: _, _, accepted => by cases accepted
  | filter :: rest, suggestions, children, accepted => by
    obtain ⟨first, later, state, others, rfl, here, there, rfl⟩ := acceptList?_cons accepted
    exact ⟨mirrors_of_accept? here, allMirror_of_acceptList? there⟩

end

end FilterExpr

namespace FormStates

/-- For the id there is a suggestion and a known filter that accepts it as the state. -/
def Suggests (schema : FilterSchema) (suggestions : List (String × Json)) (id : String)
    (state : FormState) : Prop :=
  ∃ suggestion filter, Named.find? id suggestions = some suggestion ∧
    schema.filter? id = some filter ∧ filter.expression.accept? suggestion = some state

/-- What the filter of the id makes of a suggestion. -/
def accepted? (schema : FilterSchema) (id : String) (suggestion : Json) : Option FormState :=
  (schema.filter? id).bind fun filter => filter.expression.accept? suggestion

variable {schema : FilterSchema} {states : FormStates} {id : String} {suggestion : Json}
  {state : FormState} {members left right : List (String × Json)}

theorem suggests_iff : Suggests schema members id state ↔
    (Named.find? id members).bind (accepted? schema id) = some state := by
  simp only [Suggests, accepted?, Option.bind_eq_some_iff, exists_and_left]

/-- A suggestion that is accepted takes the place of the state under its id. Its shape is never a
reason for turning it down. -/
theorem applyOne_eq : states.applyOne schema (id, suggestion) =
    (accepted? schema id suggestion).elim states fun state => Named.insert id state states := by
  unfold applyOne accepted?
  split
  next unknown => rw [unknown, Option.bind_none, Option.elim_none]
  next filter known =>
    rw [known, Option.bind_some]
    split
    next refused => rw [refused, Option.elim_none]
    next state offered =>
      have fits : state.checkShape filter.expression = .ok () :=
        (FilterExpr.mirrors_of_accept? offered).fits
      rw [offered, Option.elim_some, fits]

theorem find?_applyOne (other : String) :
    Named.find? other (states.applyOne schema (id, suggestion)) =
      if id = other then (accepted? schema id suggestion).or (Named.find? other states)
      else Named.find? other states := by
  rw [applyOne_eq]
  cases accepted? schema id suggestion with
  | none => rw [Option.elim_none, Option.none_or, ite_self]
  | some state => rw [Option.elim_some, Named.find?_insert, Option.some_or]

theorem applyOne_ascending (ascending : Named.Ascending states) :
    Named.Ascending (states.applyOne schema (id, suggestion)) := by
  rw [applyOne_eq]
  cases accepted? schema id suggestion with
  | none => exact ascending
  | some state => exact ascending.insert

theorem merge_ascending (ascending : Named.Ascending states) :
    Named.Ascending (states.merge schema (.object members)) := by
  rw [merge]
  induction members generalizing states with
  | nil => exact ascending
  | cons first rest ih => exact ih (applyOne_ascending ascending)

/-- After merging, the state of an id is what is suggested for it, or else the state from before. -/
theorem find?_merge (distinct : Named.Ascending members) :
    Named.find? id (states.merge schema (.object members)) =
      ((Named.find? id members).bind (accepted? schema id)).or (Named.find? id states) := by
  rw [merge]
  induction members generalizing states with
  | nil => rfl
  | cons first rest ih =>
    obtain ⟨other, suggestion⟩ := first
    obtain ⟨below, later⟩ := List.pairwise_cons.mp distinct
    rw [List.foldl_cons, ih later, find?_applyOne, Named.find?]
    by_cases same : other = id
    · have absent : Named.find? id rest = none := by
        rw [Named.find?_eq_none_iff]
        intro inside
        obtain ⟨entry, member, named⟩ := List.mem_map.mp inside
        apply String.lt_irrefl id
        calc id = other := same.symm
          _ < entry.1 := below entry member
          _ = id := named
      rw [if_pos same, if_pos same, absent, Option.bind_none, Option.none_or, Option.bind_some,
        same]
    · rw [if_neg same, if_neg same]

/-- Suggestions for different ids may be merged one after the other or together. -/
theorem merge_merge (ascending : Named.Ascending states) (distinct : Named.Ascending left)
    (distinct' : Named.Ascending right)
    (disjoint : ∀ id ∈ Named.names left, id ∉ Named.names right) :
    (states.merge schema (.object left)).merge schema (.object right) =
        states.merge schema (.object (Named.ofList (left ++ right))) := by
  apply Named.Ascending.ext (merge_ascending (merge_ascending ascending))
    (merge_ascending ascending)
  intro id
  rw [find?_merge distinct', find?_merge distinct, find?_merge (Named.ascending_ofList _),
    Named.find?_ofList_append distinct distinct' disjoint]
  cases offered : Named.find? id left with
  | none => rw [Option.bind_none, Option.none_or, Option.none_or]
  | some suggestion =>
    have absent : Named.find? id right = none := by
      rw [Named.find?_eq_none_iff]
      exact disjoint id (Named.exists_find?_iff.mp ⟨suggestion, offered⟩)
    rw [absent, Option.bind_none, Option.none_or, Option.some_or]

/-- Suggestions that are no object change nothing. Under each id the accepted suggestion counts, or
else the state from before. What is accepted mirrors its expression, so it passes the check of its
shape, and suggestions for different ids may be merged in any order or together. -/
theorem merge_pointwise (schema : FilterSchema) (states : FormStates)
    (ascending : Named.Ascending states) :
    (∀ incoming : Json, (∀ members, incoming ≠ .object members) →
      states.merge schema incoming = states) ∧
    (∀ members, Named.Ascending members → ∀ id,
      (∀ state, Suggests schema members id state →
        Named.find? id (states.merge schema (.object members)) = some state) ∧
      ((∀ state, ¬ Suggests schema members id state) →
        Named.find? id (states.merge schema (.object members)) = Named.find? id states)) ∧
    (∀ (expression : FilterExpr) (suggestion : Json) (state : FormState),
      expression.accept? suggestion = some state →
        state.Mirrors expression ∧ state.checkShape expression = .ok ()) ∧
    ∀ left right, Named.Ascending left → Named.Ascending right →
      (∀ id ∈ Named.names left, id ∉ Named.names right) →
        (states.merge schema (.object left)).merge schema (.object right) =
            states.merge schema (.object (Named.ofList (left ++ right))) ∧
          (states.merge schema (.object right)).merge schema (.object left) =
            states.merge schema (.object (Named.ofList (left ++ right))) := by
  refine ⟨?other, ?pointwise, ?mirrored, ?together⟩
  case other =>
    intro incoming noObject
    cases incoming with
    | object members => exact absurd rfl (noObject members)
    | _ => rfl
  case pointwise =>
    intro members distinct id
    rw [find?_merge distinct]
    constructor
    · intro state suggested
      rw [suggests_iff.mp suggested, Option.some_or]
    · intro unsuggested
      have nothing : (Named.find? id members).bind (accepted? schema id) = none := by
        apply Option.eq_none_iff_forall_ne_some.mpr
        intro state suggested
        exact unsuggested state (suggests_iff.mpr suggested)
      rw [nothing, Option.none_or]
  case mirrored =>
    intro expression suggestion state accepted
    have mirrors := FilterExpr.mirrors_of_accept? accepted
    exact ⟨mirrors, mirrors.fits⟩
  case together =>
    intro left right distinct distinct' disjoint
    have disjoint' : ∀ id ∈ Named.names right, id ∉ Named.names left :=
      fun id there here => disjoint id here there
    constructor
    · exact merge_merge ascending distinct distinct' disjoint
    · rw [merge_merge ascending distinct' distinct disjoint',
        Named.ofList_append_comm distinct distinct' disjoint]

/-- A bare operand for the appointments that are due. -/
def dueSuggestion : List (String × Json) :=
  [("due", (FormState.leaf (.int 1700000000000)).toJson)]

/-- Alternatives stand where the filter takes a list. -/
def alternativeDays : Json :=
  (FormState.and [.leaf (.string "2024-06-01"),
    .not (.or [.leaf (.string "2024-06-02"), .leaf (.array [.string "2024-06-03"])])]).toJson

/-- A suggestion for no filter beside that for the window. -/
def windowSuggestion : List (String × Json) :=
  [("nowhere", (FormState.leaf .null).toJson), ("window", alternativeDays)]

def suggestedWindow : FormState :=
  .and [.leaf (.string "2024-06-01"),
    .not (.leaf (.array [.string "2024-06-02", .string "2024-06-03"]))]

def windowExpression : FilterExpr :=
  .and [.leaf (.plain .greaterThanOrEqual (.one "starts_at") (.date none)),
    .not (.leaf (.plain .isIn (.one "starts_at") (.date none)))]

theorem appointments_merged :
    Named.Ascending appointments ∧
      appointments.merge appointmentSchema (.array []) = appointments ∧
      Named.find? "window" (appointments.merge appointmentSchema (.object windowSuggestion)) =
        some suggestedWindow ∧
      Named.find? "nowhere" (appointments.merge appointmentSchema (.object windowSuggestion)) =
        none ∧
      suggestedWindow.Mirrors windowExpression ∧
      (appointments.merge appointmentSchema (.object windowSuggestion)).merge appointmentSchema
          (.object dueSuggestion) =
        appointments.merge appointmentSchema
          (.object (Named.ofList (dueSuggestion ++ windowSuggestion))) := by
  have ascending : Named.Ascending appointments :=
    List.pairwise_pair.mpr (show "due" < "window" by decide)
  have distinct : Named.Ascending dueSuggestion := List.pairwise_singleton ..
  have distinct' : Named.Ascending windowSuggestion :=
    List.pairwise_pair.mpr (show "nowhere" < "window" by decide)
  obtain ⟨other, pointwise, mirrored, together⟩ := merge_pointwise appointmentSchema appointments
    ascending
  have window := (pointwise windowSuggestion distinct' "window").1 suggestedWindow
    ⟨_, _, rfl, rfl, rfl⟩
  have unknown : ∀ state, ¬ Suggests appointmentSchema windowSuggestion "nowhere" state := by
    intro state suggested
    obtain ⟨_, _, _, known, _⟩ := suggested
    cases known
  have nowhere := (pointwise windowSuggestion distinct' "nowhere").2 unknown
  have mirrors := mirrored windowExpression alternativeDays suggestedWindow rfl
  have disjoint : ∀ id ∈ Named.names dueSuggestion, id ∉ Named.names windowSuggestion := by
    decide
  exact ⟨ascending, other _ nofun, window, nowhere, mirrors.1,
    (together _ _ distinct distinct' disjoint).2⟩

end FormStates

end GridQuery
