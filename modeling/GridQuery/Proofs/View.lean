import GridQuery.Proofs.Filter.Schema
import GridQuery.Proofs.Query.Request
import GridQuery.View

/-!
Views survive rewriting: what is read from any document is read again, the same, from what it is
written as. Reading leaves nothing in a view that writing drops, so writing and reading once is
enough to reach a fixed point.
-/

namespace GridQuery.View

open Read (Settled Steady)

/-- What the slots hold is read again from its written form. -/
structure Draft.Settled (draft : Draft) : Prop where
  columns : Read.Settled (Read.list Column.ofJson)
    (fun columns => .array (columns.map Column.toJson)) draft.columns
  schema : Read.Settled FilterSchema.ofJson FilterSchema.toJson draft.schema
  staticConditions : Read.Settled (Read.list Read.condition)
    (fun conditions => .array (conditions.map Condition.toJson)) draft.staticConditions

theorem Draft.Settled.put {draft next : Draft} (settled : draft.Settled)
    {member : String × Json} (step : draft.put member = .ok next) : next.Settled := by
  rw [Draft.put] at step
  split_ifs at step
  case neg =>
    cases step
    exact settled
  all_goals
    obtain ⟨filled, made, ⟨⟩⟩ := bind_eq_ok.mp step
    first
      | exact { settled with }
      | exact { settled with columns := Column.steady.list.fill made }
      | exact { settled with schema := FilterSchema.steady.fill made }
      | exact { settled with staticConditions := Read.steady_condition.list.fill made }

/-- Whether or not the list is left out because it is empty, its slot ends up standing for it. -/
theorem foldlM_nonEmpty {α : Type} {write : α → Json} {name : String} {values : List α}
    (fill : Option (List α) → Draft)
    (taken : (fill none).put (name, .array (values.map write)) = .ok (fill (some values)))
    (rest : List (String × Json)) :
    ∃ slot, slot.getD [] = values ∧
      (nonEmpty name (values.map write) ++ rest).foldlM Draft.put (fill none) =
        rest.foldlM Draft.put (fill slot) := by
  cases values with
  | nil => exact ⟨none, rfl, rfl⟩
  | cons value others => exact ⟨some (value :: others), rfl, foldlM_member taken rfl⟩

/-- A draft of the view with the given slots for the members that may be left out. -/
def Draft.upTo (view : View) (conditions : Option (List Condition))
    (order : Option (List OrderTerm)) (title : Option (Option String)) : Draft :=
  ⟨title, some view.collection, some view.columns, some view.schema, some view.conditionType,
    some view.orderType, some view.paginationKey, conditions, order⟩

section

variable {view : View}

/-- The members that every view has fill their slots. -/
theorem foldlM_required
    (columns : Read.list Column.ofJson (.array (view.columns.map Column.toJson)) = .ok view.columns)
    (schema : FilterSchema.ofJson view.schema.toJson = .ok view.schema)
    (rest : List (String × Json)) :
    ([("boolExpType", Json.string view.conditionType), ("collectionName", .string view.collection),
      ("columnDefinitions", .array (view.columns.map Column.toJson)),
      ("filterSchema", view.schema.toJson), ("orderByType", .string view.orderType),
      ("paginationKey", .string view.paginationKey)] ++ rest).foldlM Draft.put {} =
      rest.foldlM Draft.put (.upTo view none none none) := by
  have takenColumns : Draft.put
      { conditionType := some view.conditionType, collection := some view.collection }
      ("columnDefinitions", .array (view.columns.map Column.toJson)) =
        .ok ⟨none, some view.collection, some view.columns, none, some view.conditionType, none,
          none, none, none⟩ := by
    simp only [Draft.put, columns]
    rfl
  have takenSchema : Draft.put ⟨none, some view.collection, some view.columns, none,
      some view.conditionType, none, none, none, none⟩ ("filterSchema", view.schema.toJson) =
        .ok ⟨none, some view.collection, some view.columns, some view.schema,
          some view.conditionType, none, none, none, none⟩ := by
    simp only [Draft.put, schema]
    rfl
  exact foldlM_member rfl <| foldlM_member rfl <| foldlM_member takenColumns <|
    foldlM_member takenSchema <| foldlM_member rfl <| foldlM_member rfl rfl

theorem read_toJson
    (columns : Read.list Column.ofJson (.array (view.columns.map Column.toJson)) = .ok view.columns)
    (schema : FilterSchema.ofJson view.schema.toJson = .ok view.schema)
    (conditions : Read.list Read.condition (.array (view.staticConditions.map Condition.toJson)) =
      .ok view.staticConditions) :
    read view.toJson = .ok view := by
  have order : Read.list Read.orderTerm (.array (view.staticOrder.map OrderTerm.toJson)) =
      .ok view.staticOrder :=
    Read.list_map_of_each fun term _ => term.read_toJson
  have takenConditions : (Draft.upTo view none none none).put
      ("staticConditions", .array (view.staticConditions.map Condition.toJson)) =
        .ok (.upTo view (some view.staticConditions) none none) := by
    simp only [Draft.put, conditions]
    rfl
  obtain ⟨filledConditions, sameConditions, passedConditions⟩ :=
    foldlM_nonEmpty (fun slot => .upTo view slot none none) takenConditions
      (nonEmpty "staticOrdering" (view.staticOrder.map OrderTerm.toJson) ++
        Json.optional "title" (view.title.map .string))
  have takenOrder : (Draft.upTo view filledConditions none none).put
      ("staticOrdering", .array (view.staticOrder.map OrderTerm.toJson)) =
        .ok (.upTo view filledConditions (some view.staticOrder) none) := by
    simp only [Draft.put, order]
    rfl
  obtain ⟨filledOrder, sameOrder, passedOrder⟩ :=
    foldlM_nonEmpty (fun slot => .upTo view filledConditions slot none) takenOrder
      (Json.optional "title" (view.title.map .string))
  refine bind_eq_ok.mpr ⟨_, rfl, bind_eq_ok.mpr
    ⟨.upTo view filledConditions filledOrder (view.title.map some), ?_, ?_⟩⟩
  · simp only [List.append_assoc]
    rw [foldlM_required columns schema, passedConditions, passedOrder]
    exact foldlM_optional_last (Draft.upTo view filledConditions filledOrder) fun _ _ => rfl
  · simp only [Draft.finish, Draft.upTo, join_map_some, sameConditions, sameOrder]
    rfl

end

/-- The parts of a view that has been read are read again from what they are written as. -/
theorem reread_parts {document : Json} {view : View} (made : read document = .ok view) :
    Read.list Column.ofJson (.array (view.columns.map Column.toJson)) = .ok view.columns ∧
      FilterSchema.ofJson view.schema.toJson = .ok view.schema ∧
      Read.list Read.condition (.array (view.staticConditions.map Condition.toJson)) =
        .ok view.staticConditions := by
  obtain ⟨members, _, made⟩ := bind_eq_ok.mp made
  obtain ⟨draft, filled, made⟩ := bind_eq_ok.mp made
  obtain ⟨collection, _, made⟩ := bind_eq_ok.mp made
  obtain ⟨columns, hasColumns, made⟩ := bind_eq_ok.mp made
  obtain ⟨conditionType, _, made⟩ := bind_eq_ok.mp made
  obtain ⟨orderType, _, made⟩ := bind_eq_ok.mp made
  obtain ⟨paginationKey, _, made⟩ := bind_eq_ok.mp made
  cases made
  have settled : draft.Settled :=
    foldlM_preserves filled ⟨nofun, nofun, nofun⟩ fun _ _ _ _ settled => settled.put
  refine ⟨settled.columns columns (Read.required_eq_ok.mp hasColumns), ?_,
    settled.staticConditions.getD⟩
  cases given : draft.schema with
  | none => rfl
  | some schema => exact settled.schema schema given

theorem steady_read : Steady read toJson := by
  intro document view made
  obtain ⟨columns, schema, conditions⟩ := reread_parts made
  exact read_toJson columns schema conditions

/-- The check of a view passes it on as it is. -/
theorem validate_eq_ok {view checked : View} (passed : view.validate = .ok checked) :
    view = checked := by
  rw [validate] at passed
  split_ifs at passed
  exact Except.ok.inj passed

/-- A view that is read from any document is read again from what it is written as: the same view,
which is written the same. -/
theorem survives_rewriting {document : Json} {view : View}
    (made : ofJson document = .ok view) :
    ofJson view.toJson = .ok view ∧ (ofJson view.toJson).map toJson = .ok view.toJson := by
  obtain ⟨found, made, passed⟩ := bind_eq_ok.mp made
  obtain rfl : view = found := (validate_eq_ok passed).symm
  have again : ofJson view.toJson = .ok view :=
    bind_eq_ok.mpr ⟨view, mapError_eq_ok.mpr (steady_read (mapError_eq_ok.mp made)), passed⟩
  exact ⟨again, congrArg (Except.map toJson) again⟩

/-- A view as it may be written by hand: in any order and case, with nulls and unknown members, and
an integer for a bound. -/
def eventsDocument : Json :=
  .object [("collectionName", .string "events"), ("title", .null),
    ("paginationKey", .string "id"), ("boolExpType", .string "events_bool_exp"),
    ("orderByType", .string "[events_order_by!]"), ("comment", .string "draft"),
    ("columnDefinitions", .array [.object [("id", .string "tasks"), ("header", .null),
      ("data", .array [.object [("type", .string "queryConfigs"),
        ("configs", .array [.object [("field", .string "tasks"), ("limit", .int 3),
          ("orderBy", .array [.single "due" (.single "day" (.string "desc"))]),
          ("where", .object [("title", .single "_like" (.string "a%")),
            ("done", .single "_eq" (.bool true))])]])]])]]),
    ("filterSchema", .single "filters" (.array [.object [("id", .string "size"),
      ("label", .string "Size"),
      ("expression", .object [("type", .string "greaterThan"),
        ("field", .object [("or", Json.strings ["width", "height"]), ("note", .null)]),
        ("value", .object [("type", .string "number"), ("initialValue", .null),
          ("min", .int 0)])])]])),
    ("staticConditions", .array [.single "_not" (.single "hidden" (.single "_eq" (.bool true)))])]

def eventsWritten : Json :=
  .object [("boolExpType", .string "events_bool_exp"), ("collectionName", .string "events"),
    ("columnDefinitions", .array [.object [
      ("data", .array [.object [
        ("configs", .array [.object [("field", .string "tasks"), ("limit", .int 3),
          ("orderBy", .array [.single "due" (.single "day" (.string "DESC"))]),
          ("where", .object [("done", .single "_eq" (.bool true)),
            ("title", .single "_like" (.string "a%"))])]]),
        ("type", .string "queryConfigs")]]),
      ("id", .string "tasks")]]),
    ("filterSchema", .object [("filters", .array [.object [("aiGenerated", .bool false),
      ("expression", .object [("field", .single "or" (Json.strings ["width", "height"])),
        ("type", .string "greaterThan"),
        ("value", .object [("min", .number (.double ⟨false, 0, by decide⟩)),
          ("type", .string "number")])]),
      ("id", .string "size"), ("label", .string "Size")]]), ("groups", .array [])]),
    ("orderByType", .string "[events_order_by!]"), ("paginationKey", .string "id"),
    ("staticConditions", .array [.single "_not" (.single "hidden" (.single "_eq" (.bool true)))])]

/-- What was written by hand is put in order once and stays as it is then. -/
theorem eventsDocument_rereads :
    ∃ view, ofJson eventsDocument = .ok view ∧ view.toJson = eventsWritten ∧
      ofJson eventsWritten = .ok view := by
  refine ⟨_, rfl, rfl, ?_⟩
  exact (survives_rewriting (show ofJson eventsDocument = .ok _ from rfl)).1

end GridQuery.View
