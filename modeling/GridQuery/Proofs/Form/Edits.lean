import GridQuery.Form.Suggestion
import GridQuery.Proofs.Form.Shape
import GridQuery.Proofs.Named

/-!
Runs of edits on the states of a form. Whatever is loaded, suggested, removed or started anew, every
state keeps the shape of its filter, so the form can always be compiled, and no fault in its shape
can keep it from being saved.
-/

namespace GridQuery

/-- What can happen to the states of a form. -/
inductive FormEdit where
  | load (document : Json)
  | reload
  | suggest (suggestions : Json)
  | remove (id : String)
  | start (mode : InitialMode)

/-- The states after an edit. What cannot be loaded leaves the states as they are, and a form is
started only if its filters have different ids. -/
def FormEdit.apply (schema : FilterSchema) (states : FormStates) : FormEdit → FormStates
  | .load document => (FormStates.load schema document).toOption.getD states
  | .reload => (states.save schema >>= FormStates.load schema).toOption.getD states
  | .suggest suggestions => states.merge schema suggestions
  | .remove id => Named.erase id states
  | .start mode =>
    if (schema.filters.map Filter.id).Nodup then .start mode schema else states

namespace FormStates

/-- The states that a run of edits leads to, from none. -/
def edited (schema : FilterSchema) (edits : List FormEdit) : FormStates :=
  edits.foldl (FormEdit.apply schema) []

/-- Every state whose filter is known has the shape of its filter. -/
def WellShaped (schema : FilterSchema) (states : FormStates) : Prop :=
  ∀ id state filter, (id, state) ∈ states → schema.filter? id = some filter →
    state.Fits filter.expression

variable {schema : FilterSchema} {states : FormStates}

theorem wellShaped_cons {id : String} {state : FormState} {rest : FormStates} :
    WellShaped schema ((id, state) :: rest) ↔
      (∀ filter, schema.filter? id = some filter → state.Fits filter.expression) ∧
        WellShaped schema rest :=
  eachKnown_cons

section

variable {mode : DateMode} {id : String} {state : FormState} {rest kept : FormStates}
  {filter : Filter} {error : ViewError}

theorem normalize_unknown_eq_ok (unknown : schema.filter? id = none) :
    normalize mode schema ((id, state) :: rest) = .ok kept ↔
      ∃ others, normalize mode schema rest = .ok others ∧ (id, state) :: others = kept := by
  simp only [normalize_unknown unknown, bind_eq_ok, pure, Except.pure, Except.ok.injEq]

theorem normalize_known_eq_ok (known : schema.filter? id = some filter) :
    normalize mode schema ((id, state) :: rest) = .ok kept ↔
      ∃ first, state.fold (dateVisitor mode schema.datePaths) filter.expression = .ok first ∧
        ∃ others, normalize mode schema rest = .ok others ∧ (id, first) :: others = kept := by
  simp only [normalize_known known, bind_eq_ok, pure, Except.pure, Except.ok.injEq]

/-- What keeps states from being normalized is the state of a known filter. -/
theorem normalize_eq_error (failed : normalize mode schema states = .error error) :
    ∃ id state filter, (id, state) ∈ states ∧ schema.filter? id = some filter ∧
      state.fold (dateVisitor mode schema.datePaths) filter.expression = .error error := by
  induction states with
  | nil => cases failed
  | cons entry rest ih =>
    obtain ⟨id, state⟩ := entry
    have later (failed : normalize mode schema rest = .error error) :
        ∃ other child filter, (other, child) ∈ (id, state) :: rest ∧
          schema.filter? other = some filter ∧
          child.fold (dateVisitor mode schema.datePaths) filter.expression = .error error := by
      obtain ⟨other, child, filter, member, known, failed⟩ := ih failed
      exact ⟨other, child, filter, List.mem_cons_of_mem _ member, known, failed⟩
    cases known : schema.filter? id with
    | none =>
      rw [normalize_unknown known] at failed
      rcases bind_eq_error.mp failed with failed | ⟨_, _, failed⟩
      · exact later failed
      · cases failed
    | some filter =>
      rw [normalize_known known] at failed
      rcases bind_eq_error.mp failed with failed | ⟨_, _, failed⟩
      · exact ⟨id, state, filter, List.mem_cons_self .., known, failed⟩
      · rcases bind_eq_error.mp failed with failed | ⟨_, _, failed⟩
        · exact later failed
        · cases failed

end

/-- Normalized states are in shape, whatever was normalized. -/
theorem normalize_wellShaped {mode : DateMode} {result : FormStates}
    (normal : normalize mode schema states = .ok result) : WellShaped schema result := by
  induction states generalizing result with
  | nil =>
    cases normal
    intro _ _ _ member
    cases member
  | cons entry rest ih =>
    obtain ⟨id, state⟩ := entry
    cases known : schema.filter? id with
    | none =>
      obtain ⟨others, later, rfl⟩ := (normalize_unknown_eq_ok known).mp normal
      refine wellShaped_cons.mpr ⟨fun filter found => ?_, ih later⟩
      cases known.symm.trans found
    | some filter =>
      obtain ⟨first, here, others, later, rfl⟩ := (normalize_known_eq_ok known).mp normal
      refine wellShaped_cons.mpr ⟨fun filter' found => ?_, ih later⟩
      cases known.symm.trans found
      exact FormState.fits_of_normalized here

theorem load_wellShaped {document : Json} (loaded : load schema document = .ok states) :
    WellShaped schema states := by
  obtain ⟨read, _, normal⟩ := bind_eq_ok.mp loaded
  exact normalize_wellShaped normal

theorem erase_wellShaped (shaped : WellShaped schema states) (id : String) :
    WellShaped schema (Named.erase id states) := by
  intro other state filter member
  exact shaped other state filter (List.mem_filter.mp member).1

section

variable {property : FormState → FilterExpr → Prop} {id : String} {state : FormState}
  {filter : Filter}

theorem insert_eachKnown (each : EachKnown schema property states)
    (known : schema.filter? id = some filter) (holds : property state filter.expression) :
    EachKnown schema property (Named.insert id state states) := by
  intro other child filter' member found
  rcases Named.mem_of_mem_insert member with same | old
  · cases same
    cases known.symm.trans found
    exact holds
  · exact each other child filter' old found

/-- What the suggestion comes to has the property, if it is accepted. -/
def Accepted (schema : FilterSchema) (property : FormState → FilterExpr → Prop)
    (suggestion : String × Json) : Prop :=
  ∀ filter state, schema.filter? suggestion.1 = some filter →
    filter.expression.accept? suggestion.2 = some state → state.Fits filter.expression →
      property state filter.expression

def AllAccepted (schema : FilterSchema) (property : FormState → FilterExpr → Prop) : Json → Prop
  | .object suggestions => ∀ suggestion ∈ suggestions, Accepted schema property suggestion
  | _ => True

theorem applyOne_eachKnown (each : EachKnown schema property states) {suggestion : String × Json}
    (accepted : Accepted schema property suggestion) :
    EachKnown schema property (states.applyOne schema suggestion) := by
  unfold applyOne
  split
  next => exact each
  next filter known =>
    split
    next => exact each
    next state offered =>
      split
      next fits => exact insert_eachKnown each known (accepted filter state known offered fits)
      next => exact each

/-- What holds of the states and of all that is accepted holds of the states with suggestions. -/
theorem merge_eachKnown (each : EachKnown schema property states) {suggestions : Json}
    (accepted : AllAccepted schema property suggestions) :
    EachKnown schema property (states.merge schema suggestions) := by
  cases suggestions with
  | object members =>
    rw [merge]
    induction members generalizing states with
    | nil => exact each
    | cons suggestion rest ih =>
      obtain ⟨first, later⟩ := List.forall_mem_cons.mp accepted
      exact ih (applyOne_eachKnown each first) later
  | _ => exact each

end

theorem merge_wellShaped (shaped : WellShaped schema states) (suggestions : Json) :
    WellShaped schema (states.merge schema suggestions) := by
  have accepted (suggestion : String × Json) :
      Accepted schema (fun state expression => state.Fits expression) suggestion :=
    fun _ _ _ _ fits => fits
  refine merge_eachKnown shaped ?_
  cases suggestions with
  | object members => exact fun suggestion _ => accepted suggestion
  | _ => trivial

/-- With different ids, looking a filter's id up finds the filter itself. -/
theorem filter?_of_nodup {filters : List Filter} (distinct : (filters.map Filter.id).Nodup)
    {filter : Filter} (member : filter ∈ filters) :
    filters.find? (fun other => other.id = filter.id) = some filter := by
  induction filters with
  | nil => cases member
  | cons first rest ih =>
    obtain ⟨fresh, distinct⟩ := List.nodup_cons.mp distinct
    rcases List.mem_cons.mp member with rfl | later
    · simp
    · have differs : first.id ≠ filter.id := by
        intro same
        exact fresh (same ▸ List.mem_map_of_mem later)
      simp [differs, ih distinct later]

theorem start_wellShaped (mode : InitialMode) (distinct : (schema.filters.map Filter.id).Nodup) :
    WellShaped schema (start mode schema) := by
  intro id state filter member known
  obtain ⟨source, offered, same⟩ := List.mem_map.mp (Named.mem_of_mem_ofList member)
  obtain ⟨rfl, rfl⟩ := Prod.mk.inj same
  have itself : schema.filter? source.id = some source := filter?_of_nodup distinct offered
  rw [itself] at known
  cases known
  exact FormState.start_fits mode filter.expression

/-- One edit keeps the states in shape. -/
theorem apply_wellShaped (shaped : WellShaped schema states) (edit : FormEdit) :
    WellShaped schema (edit.apply schema states) := by
  cases edit with
  | load document =>
    rw [FormEdit.apply]
    cases loaded : load schema document with
    | error error => exact shaped
    | ok result => exact load_wellShaped loaded
  | reload =>
    rw [FormEdit.apply]
    cases reloaded : states.save schema >>= load schema with
    | error error => exact shaped
    | ok result =>
      obtain ⟨saved, _, loaded⟩ := bind_eq_ok.mp reloaded
      exact load_wellShaped loaded
  | suggest suggestions => exact merge_wellShaped shaped suggestions
  | remove id => exact erase_wellShaped shaped id
  | start mode =>
    rw [FormEdit.apply]
    split
    next distinct => exact start_wellShaped mode distinct
    next => exact shaped

/-- A run of edits keeps the states in shape. -/
theorem foldl_apply_wellShaped (shaped : WellShaped schema states) (edits : List FormEdit) :
    WellShaped schema (edits.foldl (FormEdit.apply schema) states) := by
  induction edits generalizing states with
  | nil => exact shaped
  | cons edit rest ih => exact ih (apply_wellShaped shaped edit)

theorem WellShaped.activeConditions_ok (shaped : WellShaped schema states) :
    ∃ conditions, states.activeConditions schema = .ok conditions := by
  induction states with
  | nil => exact ⟨[], rfl⟩
  | cons entry rest ih =>
    obtain ⟨id, state⟩ := entry
    obtain ⟨here, later⟩ := wellShaped_cons.mp shaped
    obtain ⟨others, compiled⟩ := ih later
    cases known : schema.filter? id with
    | none => exact ⟨others, by rw [activeConditions_unknown known, compiled]⟩
    | some filter =>
      obtain ⟨first, inShape⟩ := (here filter known).condition?_ok
      exact ⟨first.toList ++ others, by rw [activeConditions_known known, inShape, compiled]; rfl⟩

theorem WellShaped.condition_ok (shaped : WellShaped schema states) :
    ∃ condition, states.condition schema = .ok condition := by
  obtain ⟨conditions, compiled⟩ := shaped.activeConditions_ok
  exact ⟨.all conditions, bind_eq_ok.mpr ⟨conditions, compiled, rfl⟩⟩

theorem WellShaped.normalize_error (shaped : WellShaped schema states) {error : ViewError}
    (failed : normalize .lenient schema states = .error error) : error = .beyondCalendar := by
  obtain ⟨id, state, filter, member, known, failed⟩ := normalize_eq_error failed
  exact (shaped id state filter member known).normalize_error failed

theorem WellShaped.save_error (shaped : WellShaped schema states) {error : ViewError}
    (failed : states.save schema = .error error) : error = .beyondCalendar := by
  rcases bind_eq_error.mp failed with failed | ⟨_, _, failed⟩
  · exact shaped.normalize_error failed
  · cases failed

/-- After any run of edits all states are in shape: the form compiles, and it can be saved unless an
instant in it lies after the calendar. -/
theorem edited_wellShaped (schema : FilterSchema) (edits : List FormEdit) :
    WellShaped schema (edited schema edits) ∧
      (∃ condition, (edited schema edits).condition schema = .ok condition) ∧
      ∀ error, (edited schema edits).save schema = .error error → error = .beyondCalendar := by
  have empty : WellShaped schema [] := by
    intro _ _ _ member
    cases member
  have shaped := foldl_apply_wellShaped empty edits
  exact ⟨shaped, shaped.condition_ok, fun _ => shaped.save_error⟩

end FormStates

end GridQuery
