import GridQuery.Filter.Schema
import GridQuery.Proofs.Filter.Control

/-!
Filter expressions and filter schemas are read back from what they are written as. A leaf that has
been read names its hook but does not hold it yet, so nothing of it is lost in writing.
-/

namespace GridQuery

open Read (Settled Steady)

namespace FieldTarget

theorem ofJson_toJson (target : FieldTarget) : ofJson target.toJson = .ok target := by
  cases target with
  | one path => rfl
  | allOf paths =>
    have given : group? "and" [("and", Json.strings paths)] = some paths := by
      simp [group?, Read.list_string, Except.toOption]
    simp only [toJson, Json.single, ofJson, given]
  | anyOf paths =>
    have given : group? "or" [("or", Json.strings paths)] = some paths := by
      simp [group?, Read.list_string, Except.toOption]
    have absent : group? "and" [("or", Json.strings paths)] = none := rfl
    simp only [toJson, Json.single, ofJson, given, absent]

end FieldTarget

theorem FilterOperator.ofTag?_text (operator : FilterOperator) :
    FilterExpr.Variant.ofTag? operator.text = some (.leaf operator) := by
  cases operator <;> decide

namespace FilterExpr

theorem listToJson_eq_map (filters : List FilterExpr) :
    listToJson filters = filters.map toJson := by
  induction filters with
  | nil => rfl
  | cons filter rest ih => rw [listToJson, ih, List.map_cons]

theorem ofItems_eq_mapM (items : List Json) : ofItems items = items.mapM ofJson := by
  induction items with
  | nil => rfl
  | cons item rest ih =>
    rw [ofItems, ih, List.mapM_cons]

theorem ofList_eq_list (document : Json) : ofList document = Read.list ofJson document := by
  cases document with
  | array items => exact ofItems_eq_mapM items
  | _ => rfl

/-- Reads one member, as `ofMembers` does with each. -/
def Draft.take (variant : Variant) (draft : Draft) : String × Json → Read Draft
  | (name, value) =>
    match variant with
    | .leaf _ => draft.put name value
    | .not =>
      if name = "filter" then do
        return { draft with filter := ← Read.fill draft.filter (ofJson value) }
      else .ok draft
    | _ =>
      if name = "filters" then do
        return { draft with filters := ← Read.fill draft.filters (Read.list ofJson value) }
      else .ok draft

theorem ofMembers_eq_foldlM (variant : Variant) (draft : Draft) (members : List (String × Json)) :
    ofMembers variant draft members = members.foldlM (Draft.take variant) draft := by
  induction members generalizing draft with
  | nil => rfl
  | cons member rest ih =>
    obtain ⟨name, value⟩ := member
    rw [List.foldlM_cons, ofMembers.eq_def]
    cases variant
    all_goals
      dsimp only [Draft.take]
      try split_ifs
    all_goals simp only [bind_assoc, pure_bind, ih, ofList_eq_list]
    all_goals rfl

theorem ofJson_eq_ok {members : List (String × Json)} {filter : FilterExpr} :
    ofJson (.object members) = .ok filter ↔ ∃ tag, Read.tag members = .ok tag ∧
      ∃ variant, Variant.ofTag? tag = some variant ∧
        ∃ draft, members.foldlM (Draft.take variant) {} = .ok draft ∧
          draft.finish variant = .ok filter := by
  simp only [ofJson, bind_eq_ok, Read.required_eq_ok, ofMembers_eq_foldlM]

/-- What the slots hold is read again from its written form. -/
structure Draft.Settled (draft : Draft) : Prop where
  control : Read.Settled Control.ofJson Control.toJson draft.control
  filters : Read.Settled (Read.list ofJson) (fun filters => .array (filters.map toJson))
    draft.filters
  filter : Read.Settled ofJson toJson draft.filter

theorem Draft.Settled.put {draft next : Draft} (settled : draft.Settled) {name : String}
    {value : Json} (step : draft.put name value = .ok next) : next.Settled := by
  rw [Draft.put] at step
  split_ifs at step
  case neg =>
    cases step
    exact settled
  all_goals
    obtain ⟨filled, made, ⟨⟩⟩ := bind_eq_ok.mp step
    first | exact { settled with } | exact { settled with control := Control.steady.fill made }

/-- The expression, or the expressions, that a document stands for are read again from their
written form. -/
structure Rereads (document : Json) : Prop where
  filter : ∀ filter, ofJson document = .ok filter → ofJson filter.toJson = .ok filter
  filters : ∀ filters, Read.list ofJson document = .ok filters →
    Read.list ofJson (.array (filters.map toJson)) = .ok filters

theorem Draft.Settled.take {draft next : Draft} (settled : draft.Settled) {variant : Variant}
    {member : String × Json} (again : Rereads member.2)
    (step : draft.take variant member = .ok next) : next.Settled := by
  cases variant with
  | leaf operator => exact settled.put step
  | not =>
    dsimp only [Draft.take] at step
    split_ifs at step
    · obtain ⟨filter, made, ⟨⟩⟩ := bind_eq_ok.mp step
      exact { settled with filter := Read.settled_fill again.filter made }
    · cases step
      exact settled
  | and | or =>
    dsimp only [Draft.take] at step
    split_ifs at step
    · obtain ⟨filters, made, ⟨⟩⟩ := bind_eq_ok.mp step
      exact { settled with filters := Read.settled_fill again.filters made }
    · cases step
      exact settled

theorem Draft.Settled.finish {draft : Draft} (settled : draft.Settled) {variant : Variant}
    {filter : FilterExpr} (made : draft.finish variant = .ok filter) :
    ofJson filter.toJson = .ok filter := by
  cases variant with
  | leaf operator =>
    obtain ⟨target, _, made⟩ := bind_eq_ok.mp made
    obtain ⟨control, hasControl, made⟩ := bind_eq_ok.mp made
    cases made
    have readControl := settled.control control (Read.required_eq_ok.mp hasControl)
    have taken : Draft.put {} "field" target.toJson = .ok { target := some target } := by
      simp only [Draft.put, FieldTarget.ofJson_toJson]
      rfl
    refine ofJson_eq_ok.mpr ⟨operator.text, ?_, .leaf operator, operator.ofTag?_text,
      ⟨some target, some control, draft.hookName.join.map some, none, none⟩,
      foldlM_member taken ?_, ?_⟩
    · change Read.tag (Json.optional "transform" _ ++ _) = _
      exact Read.tag_optional (by decide) _ _
    · refine foldlM_optional (fun slot => ({ target := some target, hookName := slot } : Draft))
        (fun _ _ => by rfl) (foldlM_member rfl (foldlM_member ?_ rfl))
      simp only [Draft.take, Draft.put, readControl]
      rfl
    · simp only [Draft.finish, join_map_some]
      rfl
  | and =>
    obtain ⟨filters, hasFilters, rfl⟩ := map_eq_ok.mp made
    have read := settled.filters filters (Read.required_eq_ok.mp hasFilters)
    refine ofJson_eq_ok.mpr ⟨"and", rfl, .and, rfl, { filters := some filters },
      foldlM_member ?_ rfl, rfl⟩
    simp only [Draft.take, listToJson_eq_map, read]
    rfl
  | or =>
    obtain ⟨filters, hasFilters, rfl⟩ := map_eq_ok.mp made
    have read := settled.filters filters (Read.required_eq_ok.mp hasFilters)
    refine ofJson_eq_ok.mpr ⟨"or", rfl, .or, rfl, { filters := some filters },
      foldlM_member ?_ rfl, rfl⟩
    simp only [Draft.take, listToJson_eq_map, read]
    rfl
  | not =>
    obtain ⟨inner, hasFilter, rfl⟩ := map_eq_ok.mp made
    have read := settled.filter inner (Read.required_eq_ok.mp hasFilter)
    refine ofJson_eq_ok.mpr ⟨"not", rfl, .not, rfl, { filter := some inner },
      foldlM_member ?_ rfl, rfl⟩
    simp only [Draft.take, read]
    rfl

mutual

theorem rereads : ∀ document : Json, Rereads document
  | .object members =>
    ⟨fun _ made => by
      obtain ⟨_, _, variant, _, draft, filled, made⟩ := ofJson_eq_ok.mp made
      have settled : draft.Settled := foldlM_preserves filled ⟨nofun, nofun, nofun⟩
        fun member inside _ _ settled => settled.take (rereads_members members member inside)
      exact settled.finish made, nofun⟩
  | .array items => ⟨nofun, fun filters made => by
      refine mapM_map_of_each fun filter inside => ?_
      obtain ⟨item, source, made⟩ := exists_of_mem_mapM made inside
      exact (rereads_items items item source).filter filter made⟩
  | .null => ⟨nofun, nofun⟩
  | .bool _ => ⟨nofun, nofun⟩
  | .number _ => ⟨nofun, nofun⟩
  | .string _ => ⟨nofun, nofun⟩

theorem rereads_items : ∀ items : List Json, ∀ item ∈ items, Rereads item
  | [] => nofun
  | item :: rest => List.forall_mem_cons.mpr ⟨rereads item, rereads_items rest⟩

theorem rereads_members : ∀ members : List (String × Json), ∀ member ∈ members, Rereads member.2
  | [] => nofun
  | (_, value) :: rest => List.forall_mem_cons.mpr ⟨rereads value, rereads_members rest⟩

end

theorem steady : Steady ofJson toJson :=
  fun document filter => (rereads document).filter filter

end FilterExpr

namespace FilterGroup

theorem ofJson_toJson (group : FilterGroup) : ofJson group.toJson = .ok group :=
  rfl

end FilterGroup

namespace Filter

theorem settled_put {draft next : Draft} {member : String × Json}
    (settled : Settled FilterExpr.ofJson FilterExpr.toJson draft.expression)
    (step : draft.put member = .ok next) :
    Settled FilterExpr.ofJson FilterExpr.toJson next.expression := by
  rw [Draft.put] at step
  split_ifs at step
  case neg =>
    cases step
    exact settled
  all_goals
    obtain ⟨filled, made, ⟨⟩⟩ := bind_eq_ok.mp step
    first | exact settled | exact FilterExpr.steady.fill made

theorem reread_expression {document : Json} {filter : Filter}
    (made : ofJson document = .ok filter) :
    FilterExpr.ofJson filter.expression.toJson = .ok filter.expression := by
  obtain ⟨members, _, made⟩ := bind_eq_ok.mp made
  obtain ⟨draft, filled, made⟩ := bind_eq_ok.mp made
  obtain ⟨id, _, made⟩ := bind_eq_ok.mp made
  obtain ⟨label, _, made⟩ := bind_eq_ok.mp made
  obtain ⟨expression, given, made⟩ := bind_eq_ok.mp made
  cases made
  have settled := foldlM_preserves (P := fun draft => Settled _ _ draft.expression) filled
    Read.settled_none fun _ _ _ _ => settled_put
  exact settled expression (Read.required_eq_ok.mp given)

theorem steady : Steady ofJson toJson := by
  intro document filter made
  have read := reread_expression made
  obtain ⟨id, label, expression, group, aiGenerated⟩ := filter
  have taken : Draft.put { aiGenerated := some aiGenerated } ("expression", expression.toJson) =
      .ok ⟨none, none, some expression, none, some aiGenerated⟩ := by
    simp only [Draft.put, read]
    rfl
  refine bind_eq_ok.mpr ⟨_, rfl, bind_eq_ok.mpr ⟨⟨some id, some label, some expression,
    group.map some, some aiGenerated⟩, foldlM_member rfl (foldlM_member taken ?_), ?_⟩⟩
  · exact foldlM_optional (fun slot => (⟨none, none, some expression, slot,
      some aiGenerated⟩ : Draft)) (fun _ _ => rfl) rfl
  · simp only [join_map_some]
    rfl

end Filter

namespace FilterSchema

theorem settled_put {draft next : Draft} {member : String × Json}
    (settled : Settled (Read.list Filter.ofJson) (fun filters => .array (filters.map Filter.toJson))
      draft.filters)
    (step : draft.put member = .ok next) :
    Settled (Read.list Filter.ofJson) (fun filters => .array (filters.map Filter.toJson))
      next.filters := by
  rw [Draft.put] at step
  split_ifs at step
  case neg =>
    cases step
    exact settled
  all_goals
    obtain ⟨filled, made, ⟨⟩⟩ := bind_eq_ok.mp step
    first | exact settled | exact Filter.steady.list.fill made

theorem reread_filters {document : Json} {schema : FilterSchema}
    (made : ofJson document = .ok schema) :
    Read.list Filter.ofJson (.array (schema.filters.map Filter.toJson)) = .ok schema.filters := by
  obtain ⟨members, _, made⟩ := bind_eq_ok.mp made
  obtain ⟨draft, filled, made⟩ := bind_eq_ok.mp made
  cases made
  have settled := foldlM_preserves (P := fun draft => Settled _ _ draft.filters) filled
    Read.settled_none fun _ _ _ _ => settled_put
  exact settled.getD

theorem steady : Steady ofJson toJson := by
  intro document schema made
  have filters := reread_filters made
  have groups : Read.list FilterGroup.ofJson (.array (schema.groups.map FilterGroup.toJson)) =
      .ok schema.groups :=
    Read.list_map_of_each fun group _ => group.ofJson_toJson
  have taken : Draft.put {} ("filters", .array (schema.filters.map Filter.toJson)) =
      .ok { filters := some schema.filters } := by
    simp only [Draft.put, filters]
    rfl
  refine bind_eq_ok.mpr ⟨_, rfl, bind_eq_ok.mpr ⟨⟨some schema.groups, some schema.filters⟩,
    foldlM_member taken (foldlM_member ?_ rfl), rfl⟩⟩
  simp only [Draft.put, groups]
  rfl

end FilterSchema

end GridQuery
