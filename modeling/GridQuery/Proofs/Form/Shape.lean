import GridQuery.Form.Compile
import GridQuery.Form.Initial
import GridQuery.Form.Persistence
import GridQuery.Proofs.Form.DateLeaf
import GridQuery.Proofs.Form.Fold

/-!
States in the shape of their filter. Starting a form gives such states and normalizing dates keeps
them; a state in shape always compiles, and saving it fails for no reason that lies in its shape.
-/

namespace GridQuery

namespace FilterExpr

mutual

/-- Every node of the first expression has one of its kind at its place in the second; parents there
may have further children. -/
def Within : FilterExpr → FilterExpr → Prop
  | .leaf _, .leaf _ => True
  | .and inner, .and outer => AllWithin inner outer
  | .or inner, .or outer => AllWithin inner outer
  | .not inner, .not outer => inner.Within outer
  | _, _ => False
termination_by structural inner => inner

def AllWithin : List FilterExpr → List FilterExpr → Prop
  | [], _ => True
  | _ :: _, [] => False
  | inner :: rest, outer :: others => inner.Within outer ∧ AllWithin rest others

end

mutual

theorem within_self : ∀ expression : FilterExpr, expression.Within expression
  | .leaf _ => trivial
  | .and filters => allWithin_self filters
  | .or filters => allWithin_self filters
  | .not filter => within_self filter

theorem allWithin_self : ∀ filters : List FilterExpr, AllWithin filters filters
  | [] => trivial
  | filter :: rest => ⟨within_self filter, allWithin_self rest⟩

end

end FilterExpr

namespace FormState

/-- Whether the state has the shape of the expression. -/
def Fits (state : FormState) (expression : FilterExpr) : Prop :=
  state.checkShape expression = .ok ()

section

variable {child : FormState} {children rest : List FormState} {filter : FilterExpr}
  {filters others : List FilterExpr} {index : Nat}

/-- The children have the shapes of the expressions from place `index` on. -/
def AllFit (index : Nat) (children : List FormState) (filters : List FilterExpr) : Prop :=
  ∃ units, foldChildren shapeVisitor index children filters = .ok units

theorem allFit_cons : AllFit index (child :: rest) (filter :: others) ↔
    child.Fits filter ∧ AllFit (index + 1) rest others := by
  constructor
  · rintro ⟨_, folded⟩
    obtain ⟨_, here, folded⟩ := bind_eq_ok.mp folded
    obtain ⟨units, later, _⟩ := bind_eq_ok.mp folded
    exact ⟨here, units, later⟩
  · rintro ⟨here, units, later⟩
    exact ⟨() :: units, bind_eq_ok.mpr ⟨(), here, bind_eq_ok.mpr ⟨units, later, rfl⟩⟩⟩

theorem fits_and_iff :
    (FormState.and children).Fits (.and filters) ↔ AllFit 0 children filters := by
  constructor
  · intro fits
    obtain ⟨units, folded, _⟩ := bind_eq_ok.mp fits
    exact ⟨units, folded⟩
  · rintro ⟨units, folded⟩
    exact bind_eq_ok.mpr ⟨units, folded, rfl⟩

theorem fits_or_iff : (FormState.or children).Fits (.or filters) ↔ AllFit 0 children filters := by
  constructor
  · intro fits
    obtain ⟨units, folded, _⟩ := bind_eq_ok.mp fits
    exact ⟨units, folded⟩
  · rintro ⟨units, folded⟩
    exact bind_eq_ok.mpr ⟨units, folded, rfl⟩

theorem fits_not_iff : child.not.Fits filter.not ↔ child.Fits filter := by
  constructor
  · intro fits
    obtain ⟨_, inner, _⟩ := bind_eq_ok.mp fits
    exact inner
  · intro fits
    exact bind_eq_ok.mpr ⟨(), fits, rfl⟩

end

section

variable {α : Type} {visitor : FormVisitor (Except ViewError) α} {children results : List FormState}
  {filters : List FilterExpr} {state : FormState} {expression : FilterExpr} {error : ViewError}

theorem allFit_of_folded (folded : FoldedChildren (fun _ filter result => result.Fits filter)
    children filters results) (index : Nat) : AllFit index results filters := by
  induction folded generalizing index with
  | nil filters => exact ⟨[], rfl⟩
  | cons first later ih => exact allFit_cons.mpr ⟨first, ih (index + 1)⟩

theorem fits_and (folded : FoldedChildren (fun _ filter result => result.Fits filter)
    children filters results) : (FormState.and results).Fits (.and filters) :=
  fits_and_iff.mpr (allFit_of_folded folded 0)

theorem fits_or (folded : FoldedChildren (fun _ filter result => result.Fits filter)
    children filters results) : (FormState.or results).Fits (.or filters) :=
  fits_or_iff.mpr (allFit_of_folded folded 0)

theorem establishes_fits (visitor : FormVisitor (Except ViewError) α) :
    visitor.Establishes fun state expression _ => state.Fits expression where
  leaf _ _ _ _ := rfl
  and _ _ _ _ folded _ := fits_and folded.unchanged
  or _ _ _ _ folded _ := fits_or folded.unchanged
  not _ _ _ _ fits _ := fits_not_iff.mpr fits

/-- Only states in shape can be folded. -/
theorem fits_of_folded {result : α} (folded : state.fold visitor expression = .ok result) :
    state.Fits expression :=
  fold_belongs (establishes_fits visitor) state expression result folded

mutual

/-- Where parents raise no errors, a fold fails by a fault in the shape or by one of the leaves. -/
theorem fold_error (quiet : visitor.ParentsComplete) : ∀ (state : FormState)
    (expression : FilterExpr), state.fold visitor expression = .error error →
      error.IsShapeFault ∧ ¬ state.Fits expression ∨
        ∃ pair ∈ state.pairedLeaves expression, visitor.leaf pair.1 pair.2 = .error error
  | .leaf value, expression, failed => by
    cases expression with
    | leaf contents => exact .inr ⟨_, List.mem_singleton_self _, failed⟩
    | and | or | not =>
      cases failed
      exact .inl ⟨.mismatch .., nofun⟩
  | .and children, expression, failed => by
    cases expression with
    | and filters =>
      rcases bind_eq_error.mp failed with below | ⟨results, _, here⟩
      · rw [fits_and_iff]
        exact foldChildren_error quiet children filters 0 below
      · obtain ⟨result, made⟩ := quiet.and filters children results
        cases made.symm.trans here
    | leaf | or | not =>
      cases failed
      exact .inl ⟨.mismatch .., nofun⟩
  | .or children, expression, failed => by
    cases expression with
    | or filters =>
      rcases bind_eq_error.mp failed with below | ⟨results, _, here⟩
      · rw [fits_or_iff]
        exact foldChildren_error quiet children filters 0 below
      · obtain ⟨result, made⟩ := quiet.or filters children results
        cases made.symm.trans here
    | leaf | and | not =>
      cases failed
      exact .inl ⟨.mismatch .., nofun⟩
  | .not child, expression, failed => by
    cases expression with
    | not filter =>
      rcases bind_eq_error.mp failed with below | ⟨result, _, here⟩
      · rw [fits_not_iff]
        exact fold_error quiet child filter below
      · obtain ⟨outer, made⟩ := quiet.not filter child result
        cases made.symm.trans here
    | leaf | and | or =>
      cases failed
      exact .inl ⟨.mismatch .., nofun⟩
termination_by structural state => state

theorem foldChildren_error (quiet : visitor.ParentsComplete) : ∀ (children : List FormState)
    (filters : List FilterExpr) (index : Nat),
    foldChildren visitor index children filters = .error error →
      error.IsShapeFault ∧ ¬ AllFit index children filters ∨
        ∃ pair ∈ pairedLeavesOfList children filters, visitor.leaf pair.1 pair.2 = .error error
  | [], _, _, failed => by cases failed
  | child :: rest, filters, index, failed => by
    cases filters with
    | nil =>
      cases failed
      exact .inl ⟨.missing index, nofun⟩
    | cons filter others =>
      rw [allFit_cons]
      rcases bind_eq_error.mp failed with here | ⟨_, _, failed⟩
      · rcases fold_error quiet child filter here with ⟨fault, misfits⟩ | ⟨pair, member, raised⟩
        · exact .inl ⟨fault, fun fits => misfits fits.1⟩
        · exact .inr ⟨pair, List.mem_append_left _ member, raised⟩
      · rcases bind_eq_error.mp failed with later | ⟨_, _, failed⟩
        · rcases foldChildren_error quiet rest others (index + 1) later with
            ⟨fault, misfits⟩ | ⟨pair, member, raised⟩
          · exact .inl ⟨fault, fun fits => misfits fits.2⟩
          · exact .inr ⟨pair, List.mem_append_right _ member, raised⟩
        · cases failed

end

/-- A fold over a state in shape fails by a leaf. -/
theorem Fits.fold_error (quiet : visitor.ParentsComplete) (fits : state.Fits expression)
    (failed : state.fold visitor expression = .error error) :
    ∃ pair ∈ state.pairedLeaves expression, visitor.leaf pair.1 pair.2 = .error error :=
  (FormState.fold_error quiet state expression failed).resolve_left fun misfit => misfit.2 fits

end

mutual

/-- The state that one expression starts with has the shape of another exactly if it lies within
it. -/
theorem start_fits_iff (mode : InitialMode) : ∀ inner outer : FilterExpr,
    (start mode inner).Fits outer ↔ inner.Within outer
  | .leaf _, outer => by
    cases outer with
    | leaf => exact iff_of_true rfl trivial
    | and | or | not => exact iff_of_false nofun id
  | .and inner, outer => by
    cases outer with
    | and outer => exact fits_and_iff.trans (startList_fits_iff mode inner outer 0)
    | leaf | or | not => exact iff_of_false nofun id
  | .or inner, outer => by
    cases outer with
    | or outer => exact fits_or_iff.trans (startList_fits_iff mode inner outer 0)
    | leaf | and | not => exact iff_of_false nofun id
  | .not inner, outer => by
    cases outer with
    | not outer => exact fits_not_iff.trans (start_fits_iff mode inner outer)
    | leaf | and | or => exact iff_of_false nofun id
termination_by structural inner => inner

theorem startList_fits_iff (mode : InitialMode) : ∀ (inner outer : List FilterExpr) (index : Nat),
    AllFit index (startList mode inner) outer ↔ FilterExpr.AllWithin inner outer
  | [], _, _ => iff_of_true ⟨[], rfl⟩ trivial
  | _ :: _, [], _ => iff_of_false nofun id
  | inner :: rest, outer :: others, index =>
    allFit_cons.trans <| and_congr (start_fits_iff mode inner outer)
      (startList_fits_iff mode rest others (index + 1))

end

/-- The state of an untouched form has the shape of its filter. -/
theorem start_fits (mode : InitialMode) (expression : FilterExpr) :
    (start mode expression).Fits expression :=
  (start_fits_iff mode expression expression).mpr expression.within_self

end FormState

/-- Normalizing dates keeps the shape. -/
theorem dateVisitor_establishes (mode : DateMode) (paths : List String) :
    (dateVisitor mode paths).Establishes fun _ expression result => result.Fits expression where
  leaf contents value result normal := by
    obtain ⟨kept, rfl⟩ := FilterLeaf.normalizeLeaf_eq_leaf normal
    rfl
  and filters children results result folded normal := by
    cases normal
    exact FormState.fits_and folded
  or filters children results result folded normal := by
    cases normal
    exact FormState.fits_or folded
  not filter child inner result fits normal := by
    cases normal
    exact FormState.fits_not_iff.mpr fits

theorem conditionVisitor_parentsComplete : conditionVisitor.ParentsComplete where
  and _ _ _ := ⟨_, rfl⟩
  or _ _ _ := ⟨_, rfl⟩
  not _ _ _ := ⟨_, rfl⟩

theorem dateVisitor_parentsComplete (mode : DateMode) (paths : List String) :
    (dateVisitor mode paths).ParentsComplete where
  and _ _ results := ⟨.and results, rfl⟩
  or _ _ results := ⟨.or results, rfl⟩
  not _ _ inner := ⟨.not inner, rfl⟩

namespace FormState

variable {state : FormState} {expression : FilterExpr}

theorem fits_of_normalized {mode : DateMode} {paths : List String} {result : FormState}
    (normal : state.fold (dateVisitor mode paths) expression = .ok result) :
    result.Fits expression :=
  fold_belongs (dateVisitor_establishes mode paths) state expression result normal

/-- A state in shape compiles. -/
theorem Fits.condition?_ok (fits : state.Fits expression) :
    ∃ result, state.condition? expression = .ok result := by
  cases compiled : state.condition? expression with
  | ok result => exact ⟨result, rfl⟩
  | error error =>
    obtain ⟨_, _, raised⟩ := fits.fold_error conditionVisitor_parentsComplete compiled
    cases raised

theorem Fits.normalize_error {paths : List String} {error : ViewError}
    (fits : state.Fits expression)
    (failed : state.fold (dateVisitor .lenient paths) expression = .error error) :
    error = .beyondCalendar := by
  obtain ⟨_, _, raised⟩ := fits.fold_error (dateVisitor_parentsComplete .lenient paths) failed
  obtain ⟨field, _, _, failed⟩ := FilterLeaf.normalizeLeaf_eq_error raised
  obtain ⟨part, _, beyond⟩ := Json.normalizeDates_error failed
  exact Calendar.Instant.ofJson?_error beyond

end FormState

end GridQuery
