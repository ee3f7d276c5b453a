import GridQuery.Proofs.Form.Tour

/-!
How the calls of a visitor go with the tour of a state. A fault in the shape shows where a node is
entered, and the handler of a node is called where it is left, with the nodes at its place and with
what the calls for the children gave. What follows for the calls of a whole tour is told here,
whatever makes them.
-/

namespace GridQuery

open Moment (lefts)

variable {α β : Type}

/-- What the handler of a node is called with. -/
inductive Call (α : Type) where
  | leaf (contents : FilterLeaf) (value : Json)
  | and (filters : List FilterExpr) (children : List FormState) (results : List α)
  | or (filters : List FilterExpr) (children : List FormState) (results : List α)
  | not (filter : FilterExpr) (child : FormState) (result : α)

/-- The leaf that a leaf handler is called with. -/
def Call.leaf? : Call α → Option FilterLeaf
  | .leaf contents _ => some contents
  | _ => none

/-- A call with the place of the node that it is made for. -/
structure Visit (α : Type) where
  place : List Nat
  call : Call α
  outcome : Except ViewError α

namespace Visit

def entry (visit : Visit α) : Call α × Except ViewError α :=
  (visit.call, visit.outcome)

def Succeeds (visit : Visit α) : Prop :=
  ∃ result, visit.outcome = .ok result

end Visit

/-- A visit to the place gave the result. -/
def Gave (visits : List (Visit α)) (place : List Nat) (result : α) : Prop :=
  ∃ visit ∈ visits, visit.place = place ∧ visit.outcome = .ok result

/-- The results are those of the visits to the children of a place, in order, counted from child
`index` on. -/
def GaveEach (visits : List (Visit α)) (parent : List Nat) (index count : Nat)
    (results : List α) : Prop :=
  results.length = count ∧ ∀ number result, results[number]? = some result →
    Gave visits (parent ++ [index + number]) result

section

variable {visits more : List (Visit α)} {place parent : List Nat} {result : α} {results : List α}
  {index count : Nat}

theorem Gave.subset (gave : Gave visits place result) (within : visits ⊆ more) :
    Gave more place result := by
  obtain ⟨visit, member, given⟩ := gave
  exact ⟨visit, within member, given⟩

theorem GaveEach.subset (gave : GaveEach visits parent index count results)
    (within : visits ⊆ more) : GaveEach more parent index count results :=
  ⟨gave.1, fun number result listed => (gave.2 number result listed).subset within⟩

theorem GaveEach.cons (first : Gave visits (parent ++ [index]) result)
    (later : GaveEach more parent (index + 1) count results) :
    GaveEach (visits ++ more) parent index (count + 1) (result :: results) := by
  refine ⟨congrArg Nat.succ later.1, ?_⟩
  rintro (_ | number) given listed
  · cases listed
    exact first.subset (List.subset_append_left ..)
  · rw [Nat.add_comm number, ← Nat.add_assoc]
    exact (later.2 number given listed).subset (List.subset_append_right ..)

end

namespace FormState

/-- What the handler of a place is called with, after some visits: the nodes of the expression and
of the state at the place, and what the visits to the state's children gave. -/
inductive CallAt (state : FormState) (expression : FilterExpr) (before : List (Visit α))
    (place : List Nat) : Call α → Prop
  | leaf {contents : FilterLeaf} {value : Json} (here : state.at? place = some (.leaf value))
      (there : expression.at? place = some (.leaf contents)) :
      CallAt state expression before place (.leaf contents value)
  | and {filters : List FilterExpr} {children : List FormState} {results : List α}
      (here : state.at? place = some (.and children))
      (there : expression.at? place = some (.and filters))
      (gave : GaveEach before place 0 children.length results) :
      CallAt state expression before place (.and filters children results)
  | or {filters : List FilterExpr} {children : List FormState} {results : List α}
      (here : state.at? place = some (.or children))
      (there : expression.at? place = some (.or filters))
      (gave : GaveEach before place 0 children.length results) :
      CallAt state expression before place (.or filters children results)
  | not {filter : FilterExpr} {child : FormState} {result : α}
      (here : state.at? place = some child.not) (there : expression.at? place = some filter.not)
      (gave : Gave before (place ++ [0]) result) :
      CallAt state expression before place (.not filter child result)

/-- How the visits of a run go with the moments of a tour. The run stops at the first place with a
fault that is entered, or at the first call that fails. -/
inductive Passes (state : FormState) (expression : FilterExpr) :
    List (Visit α) → List Moment → List (Visit α) → Option ViewError → Prop
  | done (before : List (Visit α)) : Passes state expression before [] [] none
  | entered {before visits : List (Visit α)} {place : List Nat} {later : List Moment}
      {stop : Option ViewError} (sound : ∀ error, ¬ FaultAt state expression place error)
      (rest : Passes state expression before later visits stop) :
      Passes state expression before (.enter place :: later) visits stop
  | faulty {before : List (Visit α)} {place : List Nat} {later : List Moment} {error : ViewError}
      (fault : FaultAt state expression place error) :
      Passes state expression before (.enter place :: later) [] (some error)
  | called {before visits : List (Visit α)} {place : List Nat} {call : Call α} {result : α}
      {later : List Moment} {stop : Option ViewError}
      (asked : CallAt state expression before place call)
      (rest : Passes state expression (before ++ [⟨place, call, .ok result⟩]) later visits stop) :
      Passes state expression before (.leave place :: later)
        (⟨place, call, .ok result⟩ :: visits) stop
  | failed {before : List (Visit α)} {place : List Nat} {call : Call α} {later : List Moment}
      {error : ViewError} (asked : CallAt state expression before place call) :
      Passes state expression before (.leave place :: later) [⟨place, call, .error error⟩]
        (some error)

/-- What keeps a run from going on after some moments: a fault where a node is entered, or a call
that fails. Everything before went well. -/
inductive StopsAt (state : FormState) (expression : FilterExpr) (visits : List (Visit α))
    (passed : List Moment) (error : ViewError) : Moment → Prop
  | fault {place : List Nat} (fault : FaultAt state expression place error)
      (places : visits.map Visit.place = lefts passed)
      (succeed : ∀ visit ∈ visits, visit.Succeeds) :
      StopsAt state expression visits passed error (.enter place)
  | failure {earlier : List (Visit α)} {place : List Nat} {call : Call α}
      (last : visits = earlier ++ [⟨place, call, .error error⟩])
      (places : earlier.map Visit.place = lefts passed)
      (succeed : ∀ visit ∈ earlier, visit.Succeeds) :
      StopsAt state expression visits passed error (.leave place)

section

variable {state node child : FormState} {expression inner filter : FilterExpr}
  {place parent : List Nat} {error : ViewError} {before visits more : List (Visit α)}
  {moments passed later : List Moment} {moment : Moment} {call : Call α}
  {stop : Option ViewError}

/-- A place that is in both trees has no fault but a difference in kind. -/
theorem sound_of_alike (here : state.at? place = some node)
    (there : expression.at? place = some inner) (alike : node.kind = inner.kind)
    (error : ViewError) : ¬ FaultAt state expression place error := by
  intro fault
  cases fault with
  | kind here' there' differ =>
    cases here.symm.trans here'
    cases there.symm.trans there'
    exact differ alike
  | overfull _ there' _ _ last =>
    rw [last, FilterExpr.at?_snoc, there', Option.bind_some, List.getElem?_length] at there
    cases there

/-- Faults are in the state. -/
theorem FaultAt.exists_node (fault : FaultAt state expression place error) :
    ∃ node, state.at? place = some node := by
  cases fault with
  | kind here _ _ => exact ⟨_, here⟩
  | overfull here _ _ more last =>
    have inside := List.getElem?_eq_getElem more
    exact ⟨_, by rw [last, at?_snoc, here, Option.bind_some, inside]⟩

theorem CallAt.leaf?_eq (asked : CallAt state expression before place call) :
    call.leaf? = expression.leafAt? place := by
  cases asked with
  | leaf _ there | and _ there | or _ there | not _ there =>
    rw [FilterExpr.leafAt?, there]
    rfl

theorem StopsAt.entered (stops : StopsAt state expression visits passed error moment) :
    StopsAt state expression visits (.enter place :: passed) error moment := by
  cases stops with
  | fault fault places succeed => exact .fault fault places succeed
  | failure last places succeed => exact .failure last places succeed

theorem StopsAt.called {result : α}
    (stops : StopsAt state expression visits passed error moment) :
    StopsAt state expression (⟨place, call, .ok result⟩ :: visits) (.leave place :: passed) error
      moment := by
  have succeeds : (⟨place, call, .ok result⟩ : Visit α).Succeeds := ⟨result, rfl⟩
  cases stops with
  | fault fault places succeed =>
    refine .fault fault ?_ (List.forall_mem_cons.mpr ⟨succeeds, succeed⟩)
    rw [List.map_cons, places, Moment.lefts_leave]
  | @failure earlier _ _ last places succeed =>
    subst last
    refine .failure (List.cons_append ..).symm ?_ (List.forall_mem_cons.mpr ⟨succeeds, succeed⟩)
    rw [List.map_cons, places, Moment.lefts_leave]

namespace Passes

theorem append (first : Passes state expression before moments visits none)
    (rest : Passes state expression (before ++ visits) later more stop) :
    Passes state expression before (moments ++ later) (visits ++ more) stop := by
  generalize none : (none : Option ViewError) = went at first
  induction first with
  | done before => rwa [List.append_nil] at rest
  | entered sound _ ih => exact .entered sound (ih rest none)
  | faulty => cases none
  | called asked _ ih =>
    refine .called asked (ih ?_ none)
    rwa [List.append_assoc]
  | failed => cases none

theorem stopped (first : Passes state expression before moments visits (some error)) :
    Passes state expression before (moments ++ later) visits (some error) := by
  generalize some : some error = went at first
  induction first with
  | done => cases some
  | entered sound _ ih => exact .entered sound (ih some)
  | faulty fault =>
    cases some
    exact .faulty fault
  | called asked _ ih => exact .called asked (ih some)
  | failed asked =>
    cases some
    exact .failed asked

theorem places_prefix (passes : Passes state expression before moments visits stop) :
    visits.map Visit.place <+: lefts moments := by
  induction passes with
  | done => exact List.prefix_rfl
  | entered _ _ ih => exact ih
  | faulty => exact List.nil_prefix
  | called _ _ ih => exact List.cons_prefix_cons.mpr ⟨rfl, ih⟩
  | failed => exact List.cons_prefix_cons.mpr ⟨rfl, List.nil_prefix⟩

theorem asked (passes : Passes state expression before moments visits stop)
    {earlier others : List (Visit α)} {visit : Visit α}
    (split : visits = earlier ++ visit :: others) :
    CallAt state expression (before ++ earlier) visit.place visit.call := by
  induction passes generalizing earlier with
  | done => simp at split
  | entered _ _ ih => exact ih split
  | faulty => simp at split
  | called asked _ ih =>
    cases earlier with
    | nil =>
      cases split
      rwa [List.append_nil]
    | cons first earlier =>
      obtain ⟨rfl, rest⟩ := List.cons.inj split
      have later := ih rest
      rwa [List.append_assoc] at later
  | failed asked =>
    cases earlier with
    | nil =>
      cases split
      rwa [List.append_nil]
    | cons first earlier =>
      obtain ⟨_, rest⟩ := List.cons.inj split
      simp at rest

/-- A run that is not stopped visits all places, meets no fault and no call fails. -/
theorem completed (passes : Passes state expression before moments visits none) :
    visits.map Visit.place = lefts moments ∧ (∀ visit ∈ visits, visit.Succeeds) ∧
      ∀ place, .enter place ∈ moments → ∀ error, ¬ FaultAt state expression place error := by
  generalize none : (none : Option ViewError) = went at passes
  induction passes with
  | done => exact ⟨rfl, List.forall_mem_nil _, fun _ member => absurd member List.not_mem_nil⟩
  | entered sound _ ih =>
    obtain ⟨places, succeed, sounds⟩ := ih none
    refine ⟨places, succeed, fun place member => ?_⟩
    rcases List.mem_cons.mp member with same | later
    · cases same
      exact sound
    · exact sounds place later
  | faulty => cases none
  | called _ _ ih =>
    obtain ⟨places, succeed, sounds⟩ := ih none
    refine ⟨by rw [List.map_cons, places, Moment.lefts_leave],
      List.forall_mem_cons.mpr ⟨⟨_, rfl⟩, succeed⟩, fun place member => ?_⟩
    rcases List.mem_cons.mp member with same | later
    · cases same
    · exact sounds place later
  | failed => cases none

/-- A run that is stopped is stopped by the first fault or failure. -/
theorem exists_stop (passes : Passes state expression before moments visits (some error)) :
    ∃ passed moment later, moments = passed ++ moment :: later ∧
      (∀ place, .enter place ∈ passed → ∀ other, ¬ FaultAt state expression place other) ∧
      StopsAt state expression visits passed error moment := by
  generalize some : some error = went at passes
  induction passes with
  | done => cases some
  | entered sound _ ih =>
    obtain ⟨passed, moment, later, rfl, sounds, stops⟩ := ih some
    refine ⟨.enter _ :: passed, moment, later, rfl, fun place member => ?_, stops.entered⟩
    rcases List.mem_cons.mp member with same | inside
    · cases same
      exact sound
    · exact sounds place inside
  | @faulty _ place later _ fault =>
    cases some
    exact ⟨[], .enter place, later, rfl, fun _ member => absurd member List.not_mem_nil,
      .fault fault rfl (List.forall_mem_nil _)⟩
  | called _ _ ih =>
    obtain ⟨passed, moment, later, rfl, sounds, stops⟩ := ih some
    refine ⟨.leave _ :: passed, moment, later, rfl, fun place member => ?_, stops.called⟩
    rcases List.mem_cons.mp member with same | inside
    · cases same
    · exact sounds place inside
  | @failed _ place call later _ _ =>
    cases some
    exact ⟨[], .leave place, later, rfl, fun _ member => absurd member List.not_mem_nil,
      .failure (List.nil_append _).symm rfl (List.forall_mem_nil _)⟩

end Passes

end

/-- Whether a computation failed, and how. -/
def failure? : Except ViewError β → Option ViewError
  | .ok _ => none
  | .error error => some error

/-- What a fold visits, and what it comes to. -/
structure CallsInOrder (state : FormState) (expression : FilterExpr) (visits : List (Visit α))
    (outcome : Except ViewError α) : Prop where
  places : visits.map Visit.place <+: state.postorder
  once : (visits.map Visit.place).Nodup
  asked : ∀ earlier visit later, visits = earlier ++ visit :: later →
    CallAt state expression earlier visit.place visit.call
  gives : ∀ result, outcome = .ok result → Gave visits [] result
  whole : state.Fits expression → (∀ visit ∈ visits, visit.Succeeds) →
    visits.map Visit.place = state.postorder ∧ ∃ result, outcome = .ok result
  stopped : ¬ (state.Fits expression ∧ ∀ visit ∈ visits, visit.Succeeds) →
    ∃ passed moment later error, state.tour = passed ++ moment :: later ∧
      (∀ place, .enter place ∈ passed → ∀ other, ¬ FaultAt state expression place other) ∧
      StopsAt state expression visits passed error moment ∧ outcome = .error error
  leaves : state.Mirrors expression → (∃ result, outcome = .ok result) →
    visits.filterMap (fun visit => visit.call.leaf?) = expression.leaves

section

variable {state : FormState} {expression : FilterExpr} {visits : List (Visit α)}
  {outcome : Except ViewError α} {error : ViewError}

theorem Passes.fits (passes : Passes state expression [] state.tour visits none) :
    state.Fits expression := by
  rw [fits_iff_faultless]
  intro place error fault
  obtain ⟨node, here⟩ := fault.exists_node
  exact passes.completed.2.2 place (enter_mem_tourFrom here) error fault

/-- A run that is stopped met a fault in the shape, or a call failed. -/
theorem Passes.not_well (passes : Passes state expression [] state.tour visits (some error)) :
    ¬ (state.Fits expression ∧ ∀ visit ∈ visits, visit.Succeeds) := by
  rintro ⟨fits, succeed⟩
  obtain ⟨passed, moment, later, _, _, stops⟩ := passes.exists_stop
  cases stops with
  | fault fault => exact fits_iff_faultless.mp fits _ error fault
  | failure last =>
    subst last
    obtain ⟨result, given⟩ := succeed _ (List.mem_append_right _ (List.mem_singleton_self _))
    cases given

theorem Passes.leaves (passes : Passes state expression [] state.tour visits none)
    (mirrors : state.Mirrors expression) :
    visits.filterMap (fun visit => visit.call.leaf?) = expression.leaves := by
  have each : ∀ visit ∈ visits, visit.call.leaf? = expression.leafAt? visit.place := by
    intro visit member
    obtain ⟨earlier, others, split⟩ := List.append_of_mem member
    exact (passes.asked split).leaf?_eq
  have all : (lefts state.tour).filterMap expression.leafAt? = expression.leaves :=
    mirrors.leaves_tour rfl
  rw [← all, ← passes.completed.1, List.filterMap_map]
  exact List.filterMap_congr each

theorem callsInOrder_of_passes
    (passes : Passes state expression [] state.tour visits (failure? outcome))
    (gives : ∀ result, outcome = .ok result → Gave visits [] result) :
    CallsInOrder state expression visits outcome := by
  have once : (visits.map Visit.place).Nodup :=
    state.nodup_postorder.sublist passes.places_prefix.sublist
  refine ⟨passes.places_prefix, once, fun _ _ _ => passes.asked, gives, ?_, ?_, ?_⟩
  · intro fits succeed
    cases outcome with
    | ok result => exact ⟨passes.completed.1, result, rfl⟩
    | error error => exact absurd ⟨fits, succeed⟩ passes.not_well
  · intro unwell
    cases outcome with
    | ok result => exact absurd ⟨passes.fits, passes.completed.2.1⟩ unwell
    | error error =>
      obtain ⟨passed, moment, later, tour, sounds, stops⟩ := passes.exists_stop
      exact ⟨passed, moment, later, error, tour, sounds, stops, rfl⟩
  · rintro mirrors ⟨result, rfl⟩
    exact passes.leaves mirrors

end

end FormState

end GridQuery
