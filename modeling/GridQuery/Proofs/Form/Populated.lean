import GridQuery.Proofs.Form.Substance
import GridQuery.Proofs.Form.Unfilled
import GridQuery.Proofs.View

/-!
Combinations without members in compiled conditions. A view that has been read holds no hooks, so
its conditions are put together by the form alone, which leaves such combinations out. The one place
where they come in is a leaf over a group of no fields: views with such a leaf are accepted.
-/

namespace GridQuery

namespace FilterExpr

/-- A leaf holds no hook, and the parts of a combination or a negation can be read. -/
def PartsRead : FilterExpr → Prop
  | .leaf contents => contents.hook = none
  | .and filters => ∀ filter ∈ filters, ∃ item, ofJson item = .ok filter
  | .or filters => ∀ filter ∈ filters, ∃ item, ofJson item = .ok filter
  | .not filter => ∃ item, ofJson item = .ok filter

theorem partsRead_of_ofJson {document : Json} {filter : FilterExpr}
    (read : ofJson document = .ok filter) : filter.PartsRead := by
  cases document with
  | object members =>
    obtain ⟨_, _, variant, _, draft, filled, made⟩ := ofJson_eq_ok.mp read
    have empty : Draft.Settled {} :=
      ⟨Read.settled_none, Read.settled_none, Read.settled_none⟩
    have settled : draft.Settled := foldlM_preserves filled empty
      fun member inside _ _ settled => settled.take (rereads_members members member inside)
    have listed {filters : List FilterExpr} (given : Read.required draft.filters = .ok filters) :
        ∀ filter ∈ filters, ∃ item, ofJson item = .ok filter := by
      -- The slot is read again from what it is written as, so each of its items can be read.
      intro filter member
      have again := settled.filters filters (Read.required_eq_ok.mp given)
      obtain ⟨item, _, read⟩ := exists_of_mem_mapM again member
      exact ⟨item, read⟩
    cases variant with
    | leaf operator =>
      obtain ⟨target, _, made⟩ := bind_eq_ok.mp made
      obtain ⟨control, _, made⟩ := bind_eq_ok.mp made
      cases made
      rfl
    | and =>
      obtain ⟨filters, given, rfl⟩ := map_eq_ok.mp made
      exact listed given
    | or =>
      obtain ⟨filters, given, rfl⟩ := map_eq_ok.mp made
      exact listed given
    | not =>
      obtain ⟨inner, given, rfl⟩ := map_eq_ok.mp made
      exact ⟨_, settled.filter inner (Read.required_eq_ok.mp given)⟩
  | null | bool _ | number _ | string _ | array _ => cases read

mutual

/-- Reading attaches no hook. -/
theorem hookless_of_ofJson : ∀ {filter : FilterExpr} {document : Json},
    ofJson document = .ok filter → filter.Hookless
  | .leaf _, _, read => List.forall_mem_singleton.mpr (partsRead_of_ofJson read)
  | .and _, _, read => hookless_of_each (partsRead_of_ofJson read)
  | .or _, _, read => hookless_of_each (partsRead_of_ofJson read)
  | .not filter, _, read => by
    obtain ⟨_, inside⟩ := partsRead_of_ofJson read
    have inner : filter.Hookless := hookless_of_ofJson inside
    exact inner

theorem hookless_of_each : ∀ {filters : List FilterExpr},
    (∀ filter ∈ filters, ∃ item, ofJson item = .ok filter) →
      ∀ leaf ∈ leavesOfList filters, leaf.hook = none
  | [], _ => nofun
  | filter :: rest, each => by
    obtain ⟨⟨_, read⟩, later⟩ := List.forall_mem_cons.mp each
    exact List.forall_mem_append.mpr ⟨hookless_of_ofJson read, hookless_of_each later⟩

end

end FilterExpr

theorem FilterSchema.hookless_of_ofJson {document : Json} {schema : FilterSchema}
    (read : ofJson document = .ok schema) : schema.Hookless := by
  intro filter member
  obtain ⟨item, _, inside⟩ := exists_of_mem_mapM (reread_filters read) member
  exact FilterExpr.hookless_of_ofJson (Filter.reread_expression inside)

theorem View.hookless_of_ofJson {document : Json} {view : View}
    (accepted : ofJson document = .ok view) : view.schema.Hookless := by
  obtain ⟨found, made, passed⟩ := bind_eq_ok.mp accepted
  obtain rfl : found = view := validate_eq_ok passed
  obtain ⟨_, schema, _⟩ := reread_parts (mapError_eq_ok.mp made)
  exact FilterSchema.hookless_of_ofJson schema

mutual

/-- No combination in the condition is without members, at any depth. -/
def Condition.Populated : Condition → Prop
  | .and members => members ≠ [] ∧ Condition.EachPopulated members
  | .or members => members ≠ [] ∧ Condition.EachPopulated members
  | .not inner => inner.Populated
  | .fields entries => FieldCondition.EntriesPopulated entries

def Condition.EachPopulated : List Condition → Prop
  | [] => True
  | condition :: rest => condition.Populated ∧ Condition.EachPopulated rest

def FieldCondition.Populated : FieldCondition → Prop
  | .nested condition => condition.Populated
  | _ => True

def FieldCondition.EntriesPopulated : List (String × FieldCondition) → Prop
  | [] => True
  | (_, condition) :: rest => condition.Populated ∧ FieldCondition.EntriesPopulated rest

end

namespace Condition

theorem eachPopulated_iff {members : List Condition} :
    EachPopulated members ↔ ∀ member ∈ members, member.Populated := by
  induction members with
  | nil => simp [EachPopulated]
  | cons member rest ih => simp [EachPopulated, ih]

theorem memberwise_populated : Memberwise Populated where
  and members present := by rw [Populated, eachPopulated_iff, and_iff_right present]
  or members present := by rw [Populated, eachPopulated_iff, and_iff_right present]
  not inner := by rw [Populated]

theorem populated_nest (path : String) (comparison : Comparison) :
    (nest path (.comparison comparison)).Populated := by
  refine nest_induct (fun name => ⟨trivial, trivial⟩) (fun name inner populated => ?_) path
  exact ⟨populated, trivial⟩

/-- A comparison at a target is without members exactly if the target is without fields. -/
theorem populated_constrain_iff {target : FieldTarget} {comparison : Comparison} :
    (target.constrain (.comparison comparison)).Populated ↔ target.paths ≠ [] := by
  cases target with
  | one path => simp [FieldTarget.constrain, FieldTarget.paths, populated_nest]
  | allOf paths | anyOf paths =>
    simp [FieldTarget.constrain, FieldTarget.paths, Populated, eachPopulated_iff, populated_nest]

end Condition

namespace FilterLeaf

/-- Without hooks a leaf comes to a populated condition unless it is active over no fields. -/
theorem yields_populated_iff {leaf : FilterLeaf} {value : Json} (hookless : leaf.hook = none) :
    leaf.Yields Condition.Populated value ↔
      (leaf.Active value → leaf.target.paths ≠ []) := by
  rw [Yields, condition?_of_hookless hookless, active_iff_of_hookless hookless]
  cases leaf.comparison? value with
  | none => simp
  | some comparison => simp [Condition.populated_constrain_iff]

end FilterLeaf

namespace FormStates

/-- A condition compiled for an accepted view has no combination without members exactly if no leaf
that is active compares the fields of an empty group. -/
theorem condition_populated_iff (document : Json) (view : View) (states : FormStates)
    (condition : Condition) (accepted : View.ofJson document = .ok view)
    (built : states.condition view.schema = .ok condition) :
    condition.Populated ↔ EachKnown view.schema (FormState.EachLeaf fun leaf value =>
      leaf.Active value → leaf.target.paths ≠ []) states := by
  have hookless := View.hookless_of_ofJson accepted
  obtain ⟨conditions, compiled, built⟩ := bind_eq_ok.mp built
  cases built
  rw [Condition.memberwise_populated.all_iff trivial,
    memberwise_activeConditions Condition.memberwise_populated compiled]
  refine forall₃_congr fun id state filter => forall₂_congr fun _ known => ?_
  have free : state.EachLeaf (fun leaf _ => leaf.hook = none) filter.expression :=
    FormState.eachLeaf_of_leaves fun leaf listed _ =>
      hookless filter (List.mem_of_find?_eq_some known) leaf listed
  rw [FormState.eachLeaf_iff, FormState.eachLeaf_iff]
  exact forall₂_congr fun pair member =>
    FilterLeaf.yields_populated_iff (FormState.eachLeaf_iff.mp free pair member)

/-- A view with a filter over two fields, and one over a group of no fields. -/
def groupsDocument : Json :=
  .object [("boolExpType", .string "events_bool_exp"), ("collectionName", .string "events"),
    ("columnDefinitions", .array []),
    ("filterSchema", .single "filters" (.array [
      .object [("expression", .object [
          ("field", .single "or" (Json.strings ["home.city", "office"])),
          ("type", .string "equals"), ("value", .single "type" (.string "text"))]),
        ("id", .string "place"), ("label", .string "Place")],
      .object [("expression", .object [("field", .single "or" (.array [])),
          ("type", .string "equals"), ("value", .single "type" (.string "text"))]),
        ("id", .string "thing"), ("label", .string "Thing")]])),
    ("orderByType", .string "[events_order_by!]"), ("paginationKey", .string "id")]

def placeGiven : FormStates :=
  [("place", .leaf (.string "Bath")), ("thing", .leaf (.string ""))]

theorem placeGiven_populated_iff :
    ∃ view, View.ofJson groupsDocument = .ok view ∧
      placeGiven.condition view.schema = .ok (.or
        [.nest "home.city" (.comparison ⟨.eq, .string "Bath"⟩),
          .nest "office" (.comparison ⟨.eq, .string "Bath"⟩)]) ∧
      (Condition.Populated (.or [.nest "home.city" (.comparison ⟨.eq, .string "Bath"⟩),
          .nest "office" (.comparison ⟨.eq, .string "Bath"⟩)]) ↔
        EachKnown view.schema (FormState.EachLeaf fun leaf value =>
          leaf.Active value → leaf.target.paths ≠ []) placeGiven) :=
  ⟨_, rfl, rfl, condition_populated_iff groupsDocument _ placeGiven _ rfl rfl⟩

/-- An accepted view compiles to a disjunction of nothing, which no row satisfies, as soon as
something is entered for a group of no fields. -/
theorem emptyGroup_excludesAll :
    ∃ view, View.ofJson groupsDocument = .ok view ∧
      condition view.schema [("thing", .leaf (.string "Bath"))] = .ok (.or []) ∧
      ¬ (Condition.or []).Populated ∧ ∀ truth path, ¬ (Condition.or []).Holds truth path := by
  refine ⟨_, rfl, rfl, fun populated => populated.1 rfl, fun truth path holds => ?_⟩
  obtain ⟨member, nothing, _⟩ := Condition.holds_or.mp holds
  cases nothing

end FormStates

end GridQuery
