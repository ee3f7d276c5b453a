import GridQuery.Filter.Script
import GridQuery.Proofs.Outcome

/-!
What a script of calls builds. A builder succeeds exactly if the script has calls and no group in it
is left empty; the expression then has the leaves in the order of the calls, joins two or more parts
wherever it joins, and holds exactly where the script says.
-/

namespace GridQuery

namespace FilterExpr

mutual

/-- Whether the expression holds, where `truth` says which leaves do. A leaf is told by its contents
and by its place in the order of leaves, which begins at `place`. -/
def Holds (truth : Nat → FilterLeaf → Prop) (place : Nat) : FilterExpr → Prop
  | .leaf contents => truth place contents
  | .and filters => EveryHolds truth place filters
  | .or filters => SomeHolds truth place filters
  | .not filter => ¬ filter.Holds truth place

def EveryHolds (truth : Nat → FilterLeaf → Prop) (place : Nat) : List FilterExpr → Prop
  | [] => True
  | filter :: rest =>
    filter.Holds truth place ∧ EveryHolds truth (place + filter.leaves.length) rest

def SomeHolds (truth : Nat → FilterLeaf → Prop) (place : Nat) : List FilterExpr → Prop
  | [] => False
  | filter :: rest =>
    filter.Holds truth place ∨ SomeHolds truth (place + filter.leaves.length) rest

end

mutual

/-- Every conjunction and disjunction has at least two parts. -/
def Branching : FilterExpr → Prop
  | .leaf _ => True
  | .and filters => 2 ≤ filters.length ∧ EachBranching filters
  | .or filters => 2 ≤ filters.length ∧ EachBranching filters
  | .not filter => filter.Branching

def EachBranching : List FilterExpr → Prop
  | [] => True
  | filter :: rest => filter.Branching ∧ EachBranching rest

end

end FilterExpr

namespace ScriptCall

mutual

/-- The leaves in the order of the calls that add them. -/
def leaves : ScriptCall → List FilterLeaf
  | .leaf contents => [contents]
  | .allOf calls => leavesOfList calls
  | .anyOf calls => leavesOfList calls
  | .notAll calls => leavesOfList calls

def leavesOfList : List ScriptCall → List FilterLeaf
  | [] => []
  | call :: rest => call.leaves ++ leavesOfList rest

end

mutual

/-- The scripts of all groups, at any depth. -/
def groups : ScriptCall → List (List ScriptCall)
  | .leaf _ => []
  | .allOf calls => calls :: groupsOfList calls
  | .anyOf calls => calls :: groupsOfList calls
  | .notAll calls => calls :: groupsOfList calls

def groupsOfList : List ScriptCall → List (List ScriptCall)
  | [] => []
  | call :: rest => call.groups ++ groupsOfList rest

end

mutual

/-- What a call says about the rows, where `truth` says which of the leaves hold. -/
def Holds (truth : Nat → FilterLeaf → Prop) (place : Nat) : ScriptCall → Prop
  | .leaf contents => truth place contents
  | .allOf calls => EveryHolds truth place calls
  | .anyOf calls => SomeHolds truth place calls
  | .notAll calls => ¬ EveryHolds truth place calls

def EveryHolds (truth : Nat → FilterLeaf → Prop) (place : Nat) : List ScriptCall → Prop
  | [] => True
  | call :: rest => call.Holds truth place ∧ EveryHolds truth (place + call.leaves.length) rest

def SomeHolds (truth : Nat → FilterLeaf → Prop) (place : Nat) : List ScriptCall → Prop
  | [] => False
  | call :: rest => call.Holds truth place ∨ SomeHolds truth (place + call.leaves.length) rest

end

end ScriptCall

/-- The expression has the leaves of the call, joins two or more parts and says the same. -/
structure FilterExpr.Renders (filter : FilterExpr) (call : ScriptCall) : Prop where
  leaves : filter.leaves = call.leaves
  branching : filter.Branching
  holds : ∀ truth place, filter.Holds truth place ↔ call.Holds truth place

namespace FilterExpr

variable {filter : FilterExpr} {filters : List FilterExpr} {call : ScriptCall}
  {calls : List ScriptCall}

abbrev RenderEach : List FilterExpr → List ScriptCall → Prop :=
  List.Forall₂ Renders

namespace RenderEach

theorem leaves (each : RenderEach filters calls) :
    leavesOfList filters = ScriptCall.leavesOfList calls := by
  induction each with
  | nil => rfl
  | cons first later ih => rw [leavesOfList, ScriptCall.leavesOfList, first.leaves, ih]

theorem branching (each : RenderEach filters calls) : EachBranching filters := by
  induction each with
  | nil => trivial
  | cons first later ih => exact ⟨first.branching, ih⟩

theorem everyHolds (each : RenderEach filters calls) (truth : Nat → FilterLeaf → Prop)
    (place : Nat) : EveryHolds truth place filters ↔ ScriptCall.EveryHolds truth place calls := by
  induction each generalizing place with
  | nil => rfl
  | cons first later ih => rw [EveryHolds, ScriptCall.EveryHolds, first.holds, first.leaves, ih]

theorem someHolds (each : RenderEach filters calls) (truth : Nat → FilterLeaf → Prop)
    (place : Nat) : SomeHolds truth place filters ↔ ScriptCall.SomeHolds truth place calls := by
  induction each generalizing place with
  | nil => rfl
  | cons first later ih => rw [SomeHolds, ScriptCall.SomeHolds, first.holds, first.leaves, ih]

end RenderEach

end FilterExpr

/-- What the calls say when they are joined. -/
def Joining.Holds (truth : Nat → FilterLeaf → Prop) (place : Nat) (calls : List ScriptCall) :
    Joining → Prop
  | .all => ScriptCall.EveryHolds truth place calls
  | .any => ScriptCall.SomeHolds truth place calls

/-- The expression has the leaves of the script, joins two or more parts and says the same. -/
structure FilterExpr.RendersScript (filter : FilterExpr) (joining : Joining)
    (calls : List ScriptCall) : Prop where
  leaves : filter.leaves = ScriptCall.leavesOfList calls
  branching : filter.Branching
  holds : ∀ truth place, filter.Holds truth place ↔ joining.Holds truth place calls

namespace FilterBuilder

variable {builder : FilterBuilder} {error : ViewError} {calls : List ScriptCall}
  {filters : List FilterExpr} {whenEmpty : ArgumentFault}

section

variable (failed : builder.error = some error)
include failed

theorem add_of_failed (entry : FilterExpr) : builder.add entry = builder := by
  rw [add, failed]

theorem fail_of_failed (other : ViewError) : builder.fail other = builder := by
  rw [fail, failed]

theorem addGroup_of_failed (group : Except ViewError FilterExpr)
    (entry : FilterExpr → FilterExpr) : builder.addGroup group entry = builder := by
  cases group with
  | ok filter => exact add_of_failed failed _
  | error other => exact fail_of_failed failed other

theorem call_of_failed (next : ScriptCall) : builder.call next = builder := by
  cases next with
  | leaf contents => exact add_of_failed failed _
  | allOf calls | anyOf calls | notAll calls => exact addGroup_of_failed failed _ _

/-- A builder with an error stays as it is. -/
theorem run_of_failed (calls : List ScriptCall) : builder.run calls = builder := by
  induction calls with
  | nil => rfl
  | cons next rest ih => rw [run, call_of_failed failed, ih]

theorem finish_of_failed : builder.finish whenEmpty = .error error := by
  rw [finish, failed]

end

section

variable (ready : builder.error = none)
include ready

theorem add_of_ready (entry : FilterExpr) :
    builder.add entry = { builder with entries := builder.entries ++ [entry] } := by
  rw [add, ready]

theorem error_add (entry : FilterExpr) : (builder.add entry).error = none := by
  rw [add_of_ready ready]
  exact ready

theorem error_fail (error : ViewError) : (builder.fail error).error = some error := by
  rw [fail, ready]

end

theorem foldl_add (ready : builder.error = none) :
    filters.foldl add builder = { builder with entries := builder.entries ++ filters } := by
  induction filters generalizing builder with
  | nil => rw [List.append_nil, List.foldl_nil]
  | cons filter rest ih =>
    rw [List.foldl_cons, ih (error_add ready filter), add_of_ready ready]
    simp

theorem join_renders (joining : Joining) (each : FilterExpr.RenderEach filters calls)
    (several : 2 ≤ filters.length) : (joining.join filters).RendersScript joining calls := by
  cases joining with
  | all => exact ⟨each.leaves, ⟨several, each.branching⟩, each.everyHolds⟩
  | any => exact ⟨each.leaves, ⟨several, each.branching⟩, each.someHolds⟩

/-- One entry stands for itself and several are joined. -/
theorem finish_renders (joining : Joining) (each : FilterExpr.RenderEach filters calls)
    (nonempty : calls ≠ []) :
    ∃ filter, finish { joining, entries := filters } whenEmpty = .ok filter ∧
      filter.RendersScript joining calls := by
  cases each with
  | nil => exact absurd rfl nonempty
  | @cons filter call filters calls first later =>
    cases later with
    | nil =>
      refine ⟨filter, rfl, ?_, first.branching, fun truth place => ?_⟩
      · simp [ScriptCall.leavesOfList, first.leaves]
      · rw [first.holds]
        cases joining <;> simp [Joining.Holds, ScriptCall.EveryHolds, ScriptCall.SomeHolds]
    | cons second others =>
      exact ⟨_, rfl, join_renders joining (.cons first (.cons second others)) (by simp)⟩

/-- Every builder gets the same entries by the calls. -/
def Adds (calls : List ScriptCall) : Prop :=
  ∃ filters, FilterExpr.RenderEach filters calls ∧
    ∀ builder, run builder calls = filters.foldl add builder

theorem Adds.finish (added : Adds calls) (joining : Joining) (nonempty : calls ≠ []) :
    ∃ filter, (run { joining } calls).finish whenEmpty = .ok filter ∧
      filter.RendersScript joining calls := by
  obtain ⟨filters, each, same⟩ := added
  rw [same, foldl_add rfl, List.nil_append]
  exact finish_renders joining each nonempty

/-- A group that is not left empty comes to what its calls say. -/
theorem finish_complete (joining : Joining) (complete : [] ∉ calls :: ScriptCall.groupsOfList calls)
    (inner : [] ∉ ScriptCall.groupsOfList calls → Adds calls) :
    ∃ filter, (run { joining } calls).finish .emptyGroup = .ok filter ∧
      filter.RendersScript joining calls := by
  obtain ⟨nonempty, deeper⟩ := List.ne_and_not_mem_of_not_mem_cons complete
  exact (inner deeper).finish joining nonempty.symm

mutual

/-- A call without an empty group adds one entry, which says what the call says. -/
theorem call_complete : ∀ {next : ScriptCall}, [] ∉ next.groups →
    ∃ filter : FilterExpr, filter.Renders next ∧ ∀ builder, call builder next = builder.add filter
  | .leaf contents, _ =>
    ⟨.leaf contents, ⟨rfl, trivial, fun _ _ => Iff.rfl⟩, fun _ => rfl⟩
  | .allOf calls, complete => by
    obtain ⟨filter, finished, leaves, branching, holds⟩ :=
      finish_complete .all complete fun deeper => run_complete deeper
    exact ⟨filter, ⟨leaves, branching, holds⟩, fun builder => by rw [call, finished]; rfl⟩
  | .anyOf calls, complete => by
    obtain ⟨filter, finished, leaves, branching, holds⟩ :=
      finish_complete .any complete fun deeper => run_complete deeper
    exact ⟨filter, ⟨leaves, branching, holds⟩, fun builder => by rw [call, finished]; rfl⟩
  | .notAll calls, complete => by
    obtain ⟨filter, finished, leaves, branching, holds⟩ :=
      finish_complete .all complete fun deeper => run_complete deeper
    exact ⟨filter.not, ⟨leaves, branching, fun truth place => not_congr (holds truth place)⟩,
      fun builder => by rw [call, finished]; rfl⟩

theorem run_complete : ∀ {calls : List ScriptCall}, [] ∉ ScriptCall.groupsOfList calls → Adds calls
  | [], _ => ⟨[], .nil, fun _ => rfl⟩
  | next :: rest, complete => by
    rw [ScriptCall.groupsOfList, List.mem_append, not_or] at complete
    obtain ⟨filter, renders, added⟩ := call_complete complete.1
    obtain ⟨filters, each, later⟩ := run_complete complete.2
    refine ⟨filter :: filters, .cons renders each, fun builder => ?_⟩
    rw [run, added, later, List.foldl_cons]

end

/-- Where the error of an empty group is met inside a group, the group has that error. -/
theorem finish_incomplete {joining : Joining}
    (incomplete : [] ∈ calls :: ScriptCall.groupsOfList calls)
    (inner : [] ∈ ScriptCall.groupsOfList calls →
      (run { joining } calls).error = some (.invalid .emptyGroup)) :
    (run { joining } calls).finish .emptyGroup = .error (.invalid .emptyGroup) := by
  rcases List.mem_cons.mp incomplete with rfl | deeper
  · rfl
  · exact finish_of_failed (inner deeper)

mutual

/-- A call with an empty group, at any depth, records the error of an empty group. -/
theorem call_incomplete : ∀ {next : ScriptCall}, [] ∈ next.groups →
    ∀ builder, call builder next = builder.fail (.invalid .emptyGroup)
  | .leaf _, incomplete, _ => by cases incomplete
  | .allOf calls, incomplete, builder
  | .anyOf calls, incomplete, builder
  | .notAll calls, incomplete, builder => by
    rw [call, finish_incomplete incomplete fun deeper => run_incomplete deeper rfl]
    rfl

theorem run_incomplete : ∀ {calls : List ScriptCall}, [] ∈ ScriptCall.groupsOfList calls →
    ∀ {builder : FilterBuilder}, builder.error = none →
      (run builder calls).error = some (.invalid .emptyGroup)
  | [], incomplete, _, _ => by cases incomplete
  | next :: rest, incomplete, builder, ready => by
    rw [run]
    by_cases here : [] ∈ next.groups
    · have failed := error_fail ready (.invalid .emptyGroup)
      rw [call_incomplete here, run_of_failed failed, failed]
    · obtain ⟨filter, _, added⟩ := call_complete here
      rw [ScriptCall.groupsOfList, List.mem_append] at incomplete
      rw [added, run_incomplete (incomplete.resolve_left here) (error_add ready filter)]

end

end FilterBuilder

namespace FilterExpr

/-- A script gives an expression exactly if it has calls and no group at any depth is left empty; an
empty group is the error otherwise, or the empty script. The expression has the leaves in the order
of the calls, joins two or more parts, and holds where all calls do. -/
theorem ofScript_renders (calls : List ScriptCall) :
    ((∃ filter, ofScript calls = .ok filter) ↔
      calls ≠ [] ∧ [] ∉ ScriptCall.groupsOfList calls) ∧
    ([] ∈ ScriptCall.groupsOfList calls → ofScript calls = .error (.invalid .emptyGroup)) ∧
    (calls = [] → ofScript calls = .error (.invalid .emptyFilter)) ∧
    ∀ filter, ofScript calls = .ok filter →
      filter.leaves = ScriptCall.leavesOfList calls ∧ filter.Branching ∧
        ∀ truth, filter.Holds truth 0 ↔ ScriptCall.EveryHolds truth 0 calls := by
  have incomplete (group : [] ∈ ScriptCall.groupsOfList calls) :
      ofScript calls = .error (.invalid .emptyGroup) :=
    FilterBuilder.finish_of_failed (FilterBuilder.run_incomplete group rfl)
  have empty (none : calls = []) : ofScript calls = .error (.invalid .emptyFilter) := by
    rw [none]
    rfl
  have needed (filter : FilterExpr) (built : ofScript calls = .ok filter) :
      calls ≠ [] ∧ [] ∉ ScriptCall.groupsOfList calls := by
    refine ⟨fun none => ?_, fun group => ?_⟩
    · rw [empty none] at built
      cases built
    · rw [incomplete group] at built
      cases built
  refine ⟨⟨fun ⟨filter, built⟩ => needed filter built, fun ⟨nonempty, complete⟩ => ?_⟩,
    incomplete, empty, fun filter built => ?_⟩
  · obtain ⟨filter, built, _⟩ :=
      (FilterBuilder.run_complete complete).finish .all nonempty
    exact ⟨filter, built⟩
  · obtain ⟨nonempty, complete⟩ := needed filter built
    obtain ⟨other, made, renders⟩ := (FilterBuilder.run_complete complete).finish .all nonempty
    obtain rfl : other = filter := Except.ok.inj (made.symm.trans built)
    exact ⟨renders.leaves, renders.branching, fun truth => renders.holds truth 0⟩

/-- A comparison on its own is built as it is. -/
example (operator : FilterOperator) (target : FieldTarget) (control : Control) :
    ofScript [.comparison operator target control] = .ok (.leaf (.plain operator target control)) :=
  rfl

def textLeaf (operator : FilterOperator) (path : String) : FilterLeaf :=
  .plain operator (.one path) (.text none none)

/-- A negated group inside a disjunction, one leaf twice, and groups of one entry. -/
def reviewScript : List ScriptCall :=
  [.ilike (.one "name") (.text none none),
    .anyOf [.equals (.one "status") (.text none none),
      .notAll [.equals (.one "owner") (.text none none),
        .equals (.one "status") (.text none none)]],
    .allOf [.anyOf [.isNull (.one "closed") (.text none none)]]]

def reviewFilter : FilterExpr :=
  .and [.leaf (textLeaf .ilike "name"),
    .or [.leaf (textLeaf .equals "status"),
      .not (.and [.leaf (textLeaf .equals "owner"), .leaf (textLeaf .equals "status")])],
    .leaf (textLeaf .isNull "closed")]

/-- The empty group stands in a branch that is followed by another call. -/
def unfinishedScript : List ScriptCall :=
  [.notAll [.equals (.one "status") (.text none none), .anyOf []],
    .isNull (.one "closed") (.text none none)]

theorem reviewScript_renders :
    ofScript reviewScript = .ok reviewFilter ∧
      reviewFilter.leaves = ScriptCall.leavesOfList reviewScript ∧ reviewFilter.Branching ∧
      (∀ truth, reviewFilter.Holds truth 0 ↔ ScriptCall.EveryHolds truth 0 reviewScript) ∧
      ofScript unfinishedScript = .error (.invalid .emptyGroup) ∧
      ofScript [] = .error (.invalid .emptyFilter) := by
  have built : ofScript reviewScript = .ok reviewFilter := rfl
  obtain ⟨_, _, _, renders⟩ := ofScript_renders reviewScript
  obtain ⟨leaves, branching, holds⟩ := renders _ built
  have unfinished : [] ∈ ScriptCall.groupsOfList unfinishedScript := by
    simp [unfinishedScript, ScriptCall.groupsOfList, ScriptCall.groups, ScriptCall.equals,
      ScriptCall.isNull, ScriptCall.comparison]
  exact ⟨built, leaves, branching, holds, (ofScript_renders unfinishedScript).2.1 unfinished,
    (ofScript_renders []).2.2.1 rfl⟩

end FilterExpr

end GridQuery
