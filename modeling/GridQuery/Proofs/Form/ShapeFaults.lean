import GridQuery.Proofs.Form.Redating
import GridQuery.Proofs.Form.Reload
import GridQuery.Proofs.Form.Untouched

/-!
Faults in the shape of form states. Whatever folds a state with its expression meets the same leaves
in the same order and stops at the same fault, so compiling, saving and loading report one error.
-/

namespace GridQuery

/-- Leaves are met only if there is no fault before them. -/
def metAfter (shape : Except ViewError Unit) (later : List (FilterLeaf × Json)) :
    List (FilterLeaf × Json) :=
  match shape with
  | .ok _ => later
  | .error _ => []

namespace FormState

mutual

/-- The leaves that are met in folding the state, with their values, up to the first fault in its
shape. -/
def metLeaves : FormState → FilterExpr → List (FilterLeaf × Json)
  | .leaf value, .leaf contents => [(contents, value)]
  | .and children, .and filters => metLeavesOfList children filters
  | .or children, .or filters => metLeavesOfList children filters
  | .not child, .not filter => child.metLeaves filter
  | _, _ => []
termination_by structural state => state

def metLeavesOfList : List FormState → List FilterExpr → List (FilterLeaf × Json)
  | child :: rest, filter :: others =>
    child.metLeaves filter ++ metAfter (child.checkShape filter) (metLeavesOfList rest others)
  | _, _ => []

end

end FormState

/-- Whether there is a result, and the error if there is none. -/
def verdict {α : Type} (outcome : Except ViewError α) : Except ViewError Unit :=
  outcome.map fun _ => ()

section

variable {α γ δ : Type} {first : Except ViewError α} {rest : Except ViewError γ}
  {next : α → Except ViewError δ} {error : ViewError}

theorem verdict_self (checked : Except ViewError Unit) : verdict checked = checked := by
  cases checked <;> rfl

theorem verdict_eq_error : verdict first = .error error ↔ first = .error error := by
  cases first with
  | error fault => rw [verdict, Except.map, Except.error.injEq, Except.error.injEq]
  | ok result => exact iff_of_false nofun nofun

theorem verdict_bind (goesOn : ∀ result, verdict (next result) = verdict rest) :
    verdict (first >>= next) = verdict first >>= fun _ => verdict rest := by
  cases first with
  | error error => rfl
  | ok result => exact goesOn result

theorem verdict_bind_complete (complete : ∀ result, ∃ outer, next result = .ok outer) :
    verdict (first >>= next) = verdict first := by
  cases first with
  | error error => rfl
  | ok result =>
    obtain ⟨outer, made⟩ := complete result
    exact congrArg verdict made

theorem bind_error_iff_of_complete (complete : ∀ result, ∃ outer, next result = .ok outer) :
    first >>= next = .error error ↔ first = .error error := by
  rw [← verdict_eq_error, verdict_bind_complete complete, verdict_eq_error]

theorem verdict_collected {head : α} {tail : Except ViewError (List α)} :
    verdict (do return head :: (← tail)) = verdict tail := by
  cases tail <;> rfl

end

/-- The outcome is that of handling the leaves in turn and meeting the fault after them, if there is
one. -/
def Traverses {α β : Type} (handle : FilterLeaf → Json → Except ViewError β)
    (met : List (FilterLeaf × Json)) (shape : Except ViewError Unit)
    (outcome : Except ViewError α) : Prop :=
  verdict outcome = (met.mapM fun pair => handle pair.1 pair.2) >>= fun _ => shape

namespace Traverses

variable {α β γ δ : Type} {handle : FilterLeaf → Json → Except ViewError β}
  {met later : List (FilterLeaf × Json)} {shape shapes : Except ViewError Unit}
  {first : Except ViewError α} {rest : Except ViewError γ} {next : α → Except ViewError δ}
  {error : ViewError}

/-- A fault in the first part keeps the second from being met. -/
theorem bind (here : Traverses handle met shape first) (there : Traverses handle later shapes rest)
    (goesOn : ∀ result, verdict (next result) = verdict rest) :
    Traverses handle (met ++ metAfter shape later) (shape >>= fun _ => shapes)
      (first >>= next) := by
  rw [Traverses, verdict_bind goesOn, here, there]
  cases shape with
  | error fault =>
    rw [metAfter, List.append_nil, bind_assoc]
    rfl
  | ok _ =>
    rw [metAfter, List.mapM_append]
    simp only [bind_assoc, pure_bind]
    rfl

/-- A parent that always gives a result adds nothing to what its children come to. -/
theorem parent {units : Except ViewError γ} {check : γ → Except ViewError Unit}
    (below : Traverses handle met (verdict units) first)
    (complete : ∀ results, ∃ result, next results = .ok result)
    (passes : ∀ results, ∃ result, check results = .ok result) :
    Traverses handle met (units >>= check) (first >>= next) := by
  rw [Traverses, verdict_bind_complete complete, below, ← verdict_self (units >>= check),
    verdict_bind_complete passes]

/-- Where every leaf that is met can be handled, the only error is the fault in the shape. -/
theorem error_iff (traverses : Traverses handle met shape first)
    (handled : ∀ pair ∈ met, ∃ result, handle pair.1 pair.2 = .ok result) :
    first = .error error ↔ shape = .error error := by
  obtain ⟨results, made⟩ := exists_mapM_eq_ok_iff.mpr handled
  rw [← verdict_eq_error, traverses, made]
  rfl

/-- Where a leaf that is met cannot be handled, the error is that of such a leaf. -/
theorem exists_handled_error (traverses : Traverses handle met shape first)
    (refused : ¬ ∀ pair ∈ met, ∃ result, handle pair.1 pair.2 = .ok result) :
    ∃ error, first = .error error ∧ ∃ pair ∈ met, handle pair.1 pair.2 = .error error := by
  cases made : met.mapM fun pair => handle pair.1 pair.2 with
  | ok results => exact absurd (exists_mapM_eq_ok_iff.mp ⟨results, made⟩) refused
  | error error =>
    refine ⟨error, verdict_eq_error.mp ?_, exists_of_mapM_eq_error made⟩
    rw [traverses, made]
    rfl

end Traverses

namespace FormState

variable {α : Type} {visitor : FormVisitor (Except ViewError) α}

theorem shapeVisitor_parentsComplete : shapeVisitor.ParentsComplete where
  and _ _ _ := ⟨(), rfl⟩
  or _ _ _ := ⟨(), rfl⟩
  not _ _ _ := ⟨(), rfl⟩

mutual

/-- Whatever the handlers of the leaves do, a fold handles the leaves that are met and then reports
the fault that checking the shape reports. -/
theorem fold_traverses (quiet : visitor.ParentsComplete) : ∀ (state : FormState)
    (expression : FilterExpr), Traverses visitor.leaf (state.metLeaves expression)
      (state.checkShape expression) (state.fold visitor expression)
  | .leaf value, expression => by
    cases expression with
    | leaf contents =>
      change verdict (visitor.leaf contents value) = _
      simp only [metLeaves, List.mapM_cons, List.mapM_nil]
      cases visitor.leaf contents value <;> rfl
    | and | or | not => rfl
  | .and children, expression => by
    cases expression with
    | and filters =>
      exact (foldChildren_traverses quiet children filters 0).parent (quiet.and filters children)
        (shapeVisitor_parentsComplete.and filters children)
    | leaf | or | not => rfl
  | .or children, expression => by
    cases expression with
    | or filters =>
      exact (foldChildren_traverses quiet children filters 0).parent (quiet.or filters children)
        (shapeVisitor_parentsComplete.or filters children)
    | leaf | and | not => rfl
  | .not child, expression => by
    cases expression with
    | not filter =>
      have inner : Traverses visitor.leaf (child.metLeaves filter)
          (verdict (child.checkShape filter)) (child.fold visitor filter) := by
        rw [verdict_self]
        exact fold_traverses quiet child filter
      exact inner.parent (quiet.not filter child) (shapeVisitor_parentsComplete.not filter child)
    | leaf | and | or => rfl
termination_by structural state => state

theorem foldChildren_traverses (quiet : visitor.ParentsComplete) : ∀ (children : List FormState)
    (filters : List FilterExpr) (index : Nat),
    Traverses visitor.leaf (metLeavesOfList children filters)
      (verdict (foldChildren shapeVisitor index children filters))
      (foldChildren visitor index children filters)
  | [], _, _ => rfl
  | child :: rest, filters, index => by
    cases filters with
    | nil => rfl
    | cons filter others =>
      have here := fold_traverses quiet child filter
      have there := foldChildren_traverses quiet rest others (index + 1)
      rw [foldChildren, foldChildren, verdict_bind fun _ => verdict_collected, verdict_self]
      exact here.bind there fun _ => verdict_collected

end

theorem isShapeFault_of_checkShape {state : FormState} {expression : FilterExpr}
    {error : ViewError} (failed : state.checkShape expression = .error error) :
    error.IsShapeFault := by
  rcases fold_error shapeVisitor_parentsComplete state expression failed with ⟨fault, _⟩ | raised
  · exact fault
  · obtain ⟨_, _, raised⟩ := raised
    cases raised

end FormState

namespace FilterLeaf

variable {schema : FilterSchema} {leaf : FilterLeaf} {value : Json} {error : ViewError}

theorem exists_normalized_iff :
    (∃ result, normalizeLeaf .strict schema.datePaths leaf value = .ok result) ↔
      leaf.HoldsDates schema.datePaths (fun _ => True) value := by
  rw [← exists_loaded_iff]
  constructor
  · rintro ⟨result, loaded⟩
    obtain ⟨kept, rfl⟩ := normalizeLeaf_eq_leaf loaded
    exact ⟨kept, loaded⟩
  · rintro ⟨kept, loaded⟩
    exact ⟨.leaf kept, loaded⟩

/-- A leaf before the end of the calendar that cannot be loaded is refused for a part of it. -/
theorem InCalendar.refusedFor (within : leaf.InCalendar schema value)
    (failed : normalizeLeaf .strict schema.datePaths leaf value = .error error) :
    ∃ field part, error = .invalidDate field part ∧ leaf.RefusedFor schema value field part := by
  obtain ⟨field, offered, listed, raised⟩ := normalizeLeaf_eq_error failed
  obtain ⟨part, inside, single, raised⟩ := Json.exists_part_of_error raised
  rcases (Json.normalizeDates_single_eq_error single).mp raised with beyond | ⟨_, _, _, same⟩
  · cases Calendar.Instant.ofJson?_error beyond
    exact absurd beyond (within field offered (FilterSchema.mem_datePaths.mp listed) part inside)
  · subst same
    exact ⟨field, part, rfl, refusedFor_of_invalid failed⟩

end FilterLeaf

namespace FormStates

/-- Checks the states whose filters are known, one after another. -/
def checkShapes (schema : FilterSchema) : FormStates → Except ViewError Unit
  | [] => .ok ()
  | (id, state) :: rest =>
    match schema.filter? id with
    | some filter => state.checkShape filter.expression >>= fun _ => checkShapes schema rest
    | none => checkShapes schema rest

/-- The leaves of known filters that are met up to the first fault in the shape of a state. -/
def metLeaves (schema : FilterSchema) : FormStates → List (FilterLeaf × Json)
  | [] => []
  | (id, state) :: rest =>
    match schema.filter? id with
    | some filter =>
      state.metLeaves filter.expression ++
        metAfter (state.checkShape filter.expression) (metLeaves schema rest)
    | none => metLeaves schema rest

/-- The error is what checking a state reports, and the states with smaller ids are in shape. -/
def FirstFault (schema : FilterSchema) (states : FormStates) (error : ViewError) : Prop :=
  ∃ id state filter, (id, state) ∈ states ∧ schema.filter? id = some filter ∧
    state.checkShape filter.expression = .error error ∧
    ∀ earlier other known, (earlier, other) ∈ states → schema.filter? earlier = some known →
      earlier < id → other.Fits known.expression

variable {schema : FilterSchema} {states rest : FormStates} {id : String} {state : FormState}
  {filter : Filter} {mode : DateMode} {error : ViewError}

theorem activeConditions_traverses (schema : FilterSchema) (states : FormStates) :
    Traverses (fun contents value => .ok (contents.condition? value)) (metLeaves schema states)
      (checkShapes schema states) (states.activeConditions schema) := by
  induction states with
  | nil => rfl
  | cons entry rest ih =>
    obtain ⟨id, state⟩ := entry
    cases known : schema.filter? id with
    | none =>
      simp only [metLeaves, checkShapes, known, activeConditions_unknown known]
      exact ih
    | some filter =>
      simp only [metLeaves, checkShapes, known, activeConditions_known known]
      refine (FormState.fold_traverses conditionVisitor_parentsComplete state
        filter.expression).bind ih fun result => ?_
      cases activeConditions schema rest <;> rfl

theorem normalize_traverses (mode : DateMode) (schema : FilterSchema) (states : FormStates) :
    Traverses (normalizeLeaf mode schema.datePaths) (metLeaves schema states)
      (checkShapes schema states) (normalize mode schema states) := by
  induction states with
  | nil => rfl
  | cons entry rest ih =>
    obtain ⟨id, state⟩ := entry
    cases known : schema.filter? id with
    | none =>
      simp only [metLeaves, checkShapes, known, normalize_unknown known]
      rw [Traverses, ← ih]
      cases normalize mode schema rest <;> rfl
    | some filter =>
      simp only [metLeaves, checkShapes, known, normalize_known known]
      refine (FormState.fold_traverses (dateVisitor_parentsComplete mode schema.datePaths) state
        filter.expression).bind ih fun result => ?_
      cases normalize mode schema rest <;> rfl

theorem checkShapes_eq_ok : checkShapes schema states = .ok () ↔ WellShaped schema states := by
  induction states with
  | nil => exact iff_of_true rfl nofun
  | cons entry rest ih =>
    obtain ⟨id, state⟩ := entry
    rw [wellShaped_cons, ← ih]
    cases known : schema.filter? id with
    | none =>
      simp only [checkShapes, known]
      exact (and_iff_right nofun).symm
    | some filter =>
      simp only [checkShapes, known, bind_eq_ok, Option.some.injEq, forall_eq']
      exact ⟨fun ⟨_, here, later⟩ => ⟨here, later⟩, fun ⟨here, later⟩ => ⟨(), here, later⟩⟩

/-- The first fault is that of the first state or, if this one is in shape, that of the others. -/
theorem firstFault_cons (ascending : Named.Ascending ((id, state) :: rest)) :
    FirstFault schema ((id, state) :: rest) error ↔
      (∃ filter, schema.filter? id = some filter ∧
        state.checkShape filter.expression = .error error) ∨
      (∀ filter, schema.filter? id = some filter → state.Fits filter.expression) ∧
        FirstFault schema rest error := by
  have below {entry : String × FormState} (later : entry ∈ rest) : id < entry.1 :=
    List.rel_of_pairwise_cons ascending later
  constructor
  · rintro ⟨other, child, filter, member, known, failed, smaller⟩
    rcases List.mem_cons.mp member with same | later
    · cases same
      exact .inl ⟨filter, known, failed⟩
    · refine .inr ⟨fun found here => ?_, other, child, filter, later, known, failed, ?_⟩
      · exact smaller id state found (List.mem_cons_self ..) here (below later)
      · exact fun earlier kept found inside =>
          smaller earlier kept found (List.mem_cons_of_mem _ inside)
  · rintro (⟨filter, known, failed⟩ | ⟨fits, other, child, filter, member, known, failed, smaller⟩)
    · refine ⟨id, state, filter, List.mem_cons_self .., known, failed, ?_⟩
      intro earlier kept found inside _ before
      rcases List.mem_cons.mp inside with same | later
      · cases same
        exact absurd before (String.lt_irrefl _)
      · exact absurd before (String.lt_asymm (below later))
    · refine ⟨other, child, filter, List.mem_cons_of_mem _ member, known, failed, ?_⟩
      intro earlier kept found inside here before
      rcases List.mem_cons.mp inside with same | later
      · cases same
        exact fits found here
      · exact smaller earlier kept found later here before

theorem checkShapes_eq_error (ascending : Named.Ascending states) :
    checkShapes schema states = .error error ↔ FirstFault schema states error := by
  induction states with
  | nil => exact iff_of_false nofun fun ⟨_, _, _, member, _⟩ => nomatch member
  | cons entry rest ih =>
    obtain ⟨id, state⟩ := entry
    rw [firstFault_cons ascending, ← ih (List.Pairwise.of_cons ascending)]
    cases known : schema.filter? id with
    | none => simp [checkShapes, known]
    | some filter =>
      simp only [checkShapes, known, bind_eq_error, Option.some.injEq, exists_eq_left', forall_eq']
      exact or_congr_right ⟨fun ⟨_, here, later⟩ => ⟨here, later⟩,
        fun ⟨here, later⟩ => ⟨(), here, later⟩⟩

/-- All that read the states fail alike if one of them is not in shape. Loading meets the leaves
before the first fault, so it may be one of these that it is refused for. -/
structure FaultsAgree (schema : FilterSchema) (states : FormStates) : Prop where
  compiles : (∃ error, states.condition schema = .error error) ↔ ¬ WellShaped schema states
  saves : (∃ error, states.save schema = .error error) ↔ ¬ WellShaped schema states
  compiled : ∀ error, states.condition schema = .error error ↔ FirstFault schema states error
  saved : ∀ error, states.save schema = .error error ↔ FirstFault schema states error
  loaded : ∀ error, FirstFault schema states error →
    (load schema states.toJson = .error error ↔ ∀ pair ∈ metLeaves schema states,
      pair.1.HoldsDates schema.datePaths (fun _ => True) pair.2)
  refused : (∃ pair ∈ metLeaves schema states,
      ¬ pair.1.HoldsDates schema.datePaths (fun _ => True) pair.2) →
    ∃ pair ∈ metLeaves schema states, ∃ field part,
      pair.1.RefusedFor schema pair.2 field part ∧
        load schema states.toJson = .error (.invalidDate field part)

theorem condition_error_iff :
    states.condition schema = .error error ↔ checkShapes schema states = .error error := by
  rw [← (activeConditions_traverses schema states).error_iff fun _ _ => ⟨_, rfl⟩]
  exact bind_error_iff_of_complete fun _ => ⟨_, rfl⟩

theorem save_error_iff (within : ∀ pair ∈ metLeaves schema states,
      pair.1.InCalendar schema pair.2) :
    states.save schema = .error error ↔ checkShapes schema states = .error error := by
  have handled : ∀ pair ∈ metLeaves schema states,
      ∃ result, normalizeLeaf .lenient schema.datePaths pair.1 pair.2 = .ok result := by
    intro pair member
    obtain ⟨kept, normal⟩ := FilterLeaf.exists_saved_iff.mpr (within pair member)
    exact ⟨.leaf kept, normal⟩
  rw [← (normalize_traverses .lenient schema states).error_iff handled]
  exact bind_error_iff_of_complete fun _ => ⟨_, rfl⟩

theorem exists_fault_iff : (∃ error, checkShapes schema states = .error error) ↔
    ¬ WellShaped schema states := by
  rw [← checkShapes_eq_ok]
  cases checkShapes schema states with
  | error error => exact iff_of_true ⟨error, rfl⟩ nofun
  | ok done => exact iff_of_false nofun fun misshapen => misshapen rfl

theorem load_written (canonical : states.Canonical) :
    load schema states.toJson = normalize .strict schema states := by
  rw [load_toJson, canonical.canonical_eq]

theorem load_error_iff (canonical : states.Canonical) (dates : ∀ pair ∈ metLeaves schema states,
      pair.1.HoldsDates schema.datePaths (fun _ => True) pair.2) :
    load schema states.toJson = .error error ↔ checkShapes schema states = .error error := by
  rw [load_written canonical]
  exact (normalize_traverses .strict schema states).error_iff fun pair member =>
    FilterLeaf.exists_normalized_iff.mpr (dates pair member)

/-- A leaf that is no date is met before the fault in the shape, and is what loading reports. -/
theorem load_refused (canonical : states.Canonical)
    (within : ∀ pair ∈ metLeaves schema states, pair.1.InCalendar schema pair.2)
    (undated : ∃ pair ∈ metLeaves schema states,
      ¬ pair.1.HoldsDates schema.datePaths (fun _ => True) pair.2) :
    ∃ pair ∈ metLeaves schema states, ∃ field part,
      pair.1.RefusedFor schema pair.2 field part ∧
        load schema states.toJson = .error (.invalidDate field part) := by
  obtain ⟨pair, member, unread⟩ := undated
  obtain ⟨error, failed, refused, met, raised⟩ :=
    (normalize_traverses .strict schema states).exists_handled_error fun handled =>
      unread (FilterLeaf.exists_normalized_iff.mp (handled pair member))
  obtain ⟨field, part, rfl, refusal⟩ := (within refused met).refusedFor raised
  exact ⟨refused, met, field, part, refusal, (load_written canonical).trans failed⟩

/-- Where no leaf that is met is after the calendar, compiling and saving fail with one and the same
error, which is the first fault in the shape of a state, and so does loading what is written of the
states unless a leaf before the fault is no date. -/
theorem faultsAgree (ascending : Named.Ascending states) (canonical : states.Canonical)
    (within : ∀ pair ∈ metLeaves schema states, pair.1.InCalendar schema pair.2) :
    FaultsAgree schema states := by
  have reported (error : ViewError) : checkShapes schema states = .error error ↔
      FirstFault schema states error := checkShapes_eq_error ascending
  refine ⟨?compiles, ?saves, ?compiled, ?saved, ?loaded, load_refused canonical within⟩
  case compiles => simp only [condition_error_iff, exists_fault_iff]
  case saves => simp only [save_error_iff within, exists_fault_iff]
  case compiled => exact fun error => condition_error_iff.trans (reported error)
  case saved => exact fun error => (save_error_iff within).trans (reported error)
  case loaded =>
    intro error fault
    constructor
    · intro failed pair member
      by_contra unread
      obtain ⟨_, _, field, part, _, refused⟩ :=
        load_refused canonical within ⟨pair, member, unread⟩
      obtain ⟨_, _, _, _, _, misfit, _⟩ := fault
      cases failed.symm.trans refused
      cases FormState.isShapeFault_of_checkShape misfit
    · exact fun dates => (load_error_iff canonical dates).mpr ((reported error).mpr fault)

/-- A state of an unknown filter, one in shape and one with two faults after a leaf that is no
date. -/
def brokenWindow : FormStates :=
  [("ago", .not (.leaf .null)), ("due", .leaf (operatorPair (.string "_lt") (.int 1700000000000))),
    ("window", .and [.leaf (.string "soon"), .leaf .null, .leaf .null])]

theorem brokenWindow_faultsAgree :
    Named.Ascending brokenWindow ∧ brokenWindow.Canonical ∧
      (∀ pair ∈ metLeaves appointmentSchema brokenWindow,
        pair.1.InCalendar appointmentSchema pair.2) ∧
      FaultsAgree appointmentSchema brokenWindow ∧
      FirstFault appointmentSchema brokenWindow (.schemaMismatch .leaf .not) ∧
      load appointmentSchema brokenWindow.toJson =
        .error (.invalidDate "starts_at" (.string "soon")) := by
  have ascending : Named.Ascending brokenWindow := by
    unfold Named.Ascending brokenWindow
    decide
  have canonical : brokenWindow.Canonical := by
    refine List.forall_mem_cons.mpr ⟨?_, List.forall_mem_cons.mpr ⟨?_, ?_⟩⟩
    · trivial
    · exact FilterLeaf.operatorPair_canonical trivial trivial
    · exact List.forall_mem_singleton.mpr ⟨trivial, trivial, trivial, trivial⟩
  have within : ∀ pair ∈ metLeaves appointmentSchema brokenWindow,
      pair.1.InCalendar appointmentSchema pair.2 := by
    refine List.forall_mem_cons.mpr ⟨?_, List.forall_mem_singleton.mpr ?_⟩
    · exact FilterLeaf.exists_saved_iff.mp ⟨_, rfl⟩
    · exact FilterLeaf.exists_saved_iff.mp ⟨_, rfl⟩
  have agree := faultsAgree ascending canonical within
  exact ⟨ascending, canonical, within, agree, (agree.compiled _).mp rfl, rfl⟩

end FormStates

end GridQuery
