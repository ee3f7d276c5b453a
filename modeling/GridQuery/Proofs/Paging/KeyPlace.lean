import GridQuery.Proofs.Paging.CursorSource
import GridQuery.Proofs.Query.OrderTerm
import GridQuery.Proofs.Text.Path
import GridQuery.Query.Variables

/-!
One path, one place. Conditions, orderings and selections wrap what they put at the end of a path
into its segments, and a lookup follows the segments from the first to the last; all of them come to
the same place, whether the segments are cut off at the start or at the end of the path and whether
or not some of them are empty.
-/

namespace GridQuery

namespace Json

/-- Following the segments leads through objects with one member each to the inner value. -/
inductive Leads (inner : Json) : List String → Json → Prop
  | ends : Leads inner [] inner
  | through (segment : String) {rest : List String} {value : Json}
      (further : Leads inner rest value) : Leads inner (segment :: rest) (.single segment value)

theorem get?_single (name : String) (value : Json) : (single name value).get? name = some value :=
  if_pos rfl

theorem Leads.atSegments? {inner value : Json} {segments : List String}
    (leads : Leads inner segments value) : value.atSegments? segments = some inner := by
  induction leads with
  | ends => rfl
  | through segment further ih =>
    rw [Json.atSegments?, get?_single]
    exact ih

theorem atSegments?_eq_foldlM (value : Json) (segments : List String) :
    value.atSegments? segments =
      segments.foldlM (fun value segment => value.get? segment) value := by
  induction segments generalizing value with
  | nil => rfl
  | cons segment rest ih =>
    rw [atSegments?, List.foldlM_cons]
    cases value.get? segment with
    | none => rfl
    | some inner => exact ih inner

end Json

theorem OrderTerm.leads_nestSegments (value : Json) (first : String) (rest : List String) :
    Json.Leads value (first :: rest) (nestSegments value first rest) := by
  induction rest generalizing first with
  | nil => exact .through first .ends
  | cons second rest ih => exact .through first (ih second)

theorem OrderTerm.leads_toJson (term : OrderTerm) :
    Json.Leads (.string term.direction.text) (Path.ofString term.field).segments term.toJson :=
  leads_nestSegments _ _ _

namespace Condition

/-- A condition on a path is written like an ordering by it. -/
theorem toJson_nestSegments (condition : FieldCondition) (first : String) (rest : List String) :
    (nestSegments condition first rest).toJson =
      OrderTerm.nestSegments condition.toJson first rest := by
  induction rest generalizing first with
  | nil => rfl
  | cons second rest ih => exact congrArg (Json.single first) (ih second)

theorem leads_nest (path : String) (condition : FieldCondition) :
    Json.Leads condition.toJson (Path.ofString path).segments (nest path condition).toJson := by
  rw [nest, toJson_nestSegments]
  exact OrderTerm.leads_nestSegments _ _ _

theorem leads_after (key : String) {cursor : Json} (given : cursor.isNull = false) :
    Json.Leads (.single "_lt" cursor) (Path.ofString key).segments
      (after key (some cursor)).toJson := by
  have compared : after key (some cursor) = .nest key (.comparison ⟨.lt, cursor⟩) := by
    cases cursor with
    | null => cases given
    | _ => rfl
  rw [compared]
  exact leads_nest key (.comparison ⟨.lt, cursor⟩)

end Condition

namespace Selection

/-- The item is a chain of fields without anything else, from the outermost to the innermost. -/
inductive Chain : List String → Selection → Prop
  | last (field : String) : Chain [field] (plain field)
  | under (field : String) {fields : List String} {inner : Selection} (below : Chain fields inner) :
      Chain (field :: fields) { plain field with selections := [inner] }

/-- The fields are selected one under the other, without new names, paths and filters. -/
def Asks : List String → List Selection → Prop
  | [], _ => True
  | field :: rest, items =>
    ∃ item ∈ items, item.target = Target.plain field ∧ Asks rest item.selections

theorem chain_ofPath (path : String) : Chain (Path.ofString path).segments (ofPath path) := by
  have along : ∀ first rest, Chain (first :: rest) (link (plain first) (rest.map plain)) := by
    intro first rest
    induction rest generalizing first with
    | nil => exact .last first
    | cons second rest ih => exact .under first (ih second)
  exact along _ _

/-- Where items stand at the end of a path the fields on the way are selected. -/
theorem asks_of_itemsOn {first : String} {rest : List String} {items : List Selection}
    (some : itemsOn ((first :: rest).map Target.plain) (walk items) ≠ []) :
    Asks (first :: rest) items := by
  induction rest generalizing first items with
  | nil =>
    rw [List.map_singleton, itemsOn_single] at some
    obtain ⟨item, member⟩ := List.exists_mem_of_ne_nil _ some
    obtain ⟨inside, plain⟩ := mem_alike_plain.mp member
    exact ⟨item, inside, plain, trivial⟩
  | cons second rest ih =>
    have further : (second :: rest).map Target.plain ≠ [] := List.cons_ne_nil _ _
    rw [List.map_cons, itemsOn_below further] at some
    obtain ⟨child, member, plain', below⟩ := ih some
    obtain ⟨item, among, under⟩ := List.mem_flatMap.mp member
    obtain ⟨inside, plain⟩ := mem_alike_plain.mp among
    exact ⟨item, inside, plain, child, under, plain', below⟩

end Selection

/-- Wherever a view speaks of its pagination key it means what the segments lead to: where the
cursor is looked up, what rows are compared with it, what they are ordered by first, and what is
asked of them. -/
structure View.KeyAt (segments : List String) (view : View) : Prop where
  cursor : ∀ rows rowLimit cursor, nextCursor? rows view.paginationKey rowLimit = some cursor →
    ∃ row ∈ rows, row.atSegments? segments = some cursor
  condition : ∀ states rowLimit cursor queryVariables, cursor.isNull = false →
    view.queryVariables states rowLimit (some cursor) = .ok queryVariables →
      Json.Leads (.single "_lt" cursor) segments queryVariables.paginationCondition.toJson
  ordering : ∀ states rowLimit cursor queryVariables,
    view.queryVariables states rowLimit cursor = .ok queryVariables →
      ∃ root later, queryVariables.orderBy = root :: later ∧
        Json.Leads (.string "DESC") segments root.toJson
  selection : Selection.Asks segments view.document.selections

theorem View.keyAt (view : View) : view.KeyAt (Path.ofString view.paginationKey).segments where
  cursor := fun _ _ _ => nextCursor?_eq_some
  condition := by
    intro states rowLimit cursor queryVariables given made
    obtain ⟨user, _, made⟩ := bind_eq_ok.mp made
    cases made
    exact Condition.leads_after view.paginationKey given
  ordering := by
    intro states rowLimit cursor queryVariables made
    obtain ⟨user, _, made⟩ := bind_eq_ok.mp made
    cases made
    exact ⟨_, _, rfl, OrderTerm.leads_toJson ⟨view.paginationKey, .desc⟩⟩
  selection := by
    obtain ⟨item, ends⟩ := Selection.exists_itemsOn_ensurePath view.columns view.paginationKey
    have some : Selection.itemsOn (Selection.plainSteps view.paginationKey)
        (Selection.walk view.document.selections) ≠ [] := by
      rw [document, ends]
      exact List.cons_ne_nil item []
    exact Selection.asks_of_itemsOn some

/-- What is put at the end of a path as a condition or as a direction is looked up there, through
objects with one member each, and the fields selected for the path are those of the lookup. The
segments may as well be taken from the end of the path. Hence all that a view makes of its
pagination key means one place. -/
theorem Path.leads_to_one_place (path : String) :
    (∀ condition : FieldCondition,
      (Condition.nest path condition).toJson.atPath? path = some condition.toJson ∧
      Json.Leads condition.toJson (ofString path).segments (Condition.nest path condition).toJson ∧
      wrapFromEnd? (Condition.field · condition)
          (fun segment inner => Condition.field segment (.nested inner)) (segmentsFromEnd path) =
        some (Condition.nest path condition)) ∧
    (∀ direction : Direction,
      (OrderTerm.toJson ⟨path, direction⟩).atPath? path = some (.string direction.text) ∧
      wrapFromEnd? (Json.single · (.string direction.text)) Json.single (segmentsFromEnd path) =
        some (OrderTerm.toJson ⟨path, direction⟩)) ∧
    (∃ item, Selection.ofRequest? (.field path) = some item ∧
      Selection.Chain (ofString path).segments item ∧
      wrapFromEnd? Selection.plain
          (fun field inner => { Selection.plain field with selections := [inner] })
          (ofString path).segments.reverse = some item) ∧
    (∀ row : Json, row.atPath? path =
      (ofString path).segments.foldlM (fun value segment => value.get? segment) row) ∧
    ∀ view : View, view.paginationKey = path → view.KeyAt (ofString path).segments := by
  refine ⟨fun condition => ⟨?_, Condition.leads_nest path condition, ?_⟩,
    fun direction => ⟨?_, ?_⟩, ⟨_, rfl, Selection.chain_ofPath path, ?_⟩, fun row => ?_, ?_⟩
  · exact (Condition.leads_nest path condition).atSegments?
  · rw [segmentsFromEnd_eq]
    exact wrapFromEnd?_reverse (Condition.nestSegments condition) (fun _ => rfl)
      (fun _ _ _ => rfl) _ _
  · exact (OrderTerm.leads_toJson ⟨path, direction⟩).atSegments?
  · rw [segmentsFromEnd_eq]
    exact wrapFromEnd?_reverse (OrderTerm.nestSegments (.string direction.text)) (fun _ => rfl)
      (fun _ _ _ => rfl) _ _
  · exact wrapFromEnd?_reverse
      (fun first rest => Selection.link (Selection.plain first) (rest.map Selection.plain))
      (fun _ => rfl) (fun _ _ _ => rfl) _ _
  · exact row.atSegments?_eq_foldlM _
  · rintro view rfl
    exact view.keyAt

/-- A view whose pagination key has an empty segment. -/
def gappedView : View where
  title := none
  collection := "events"
  columns := [⟨"note", none, [.field "meta.note", .renamed "id" (.field "name")]⟩]
  schema := .empty
  conditionType := "events_bool_exp"
  orderType := "[events_order_by!]"
  paginationKey := "meta..id"
  staticConditions := []
  staticOrder := [⟨"name", .asc⟩]

theorem gappedView_one_place :
    (Condition.nest "meta..id" (.comparison ⟨.gt, .int 7⟩)).toJson.atPath? "meta..id" =
        some (.single "_gt" (.int 7)) ∧
      gappedView.KeyAt ["meta", "", "id"] ∧
      ∃ queryVariables, gappedView.queryVariables [] 10 (some (.int 7)) = .ok queryVariables ∧
        Json.Leads (.single "_lt" (.int 7)) ["meta", "", "id"]
          queryVariables.paginationCondition.toJson ∧
        ∃ root later, queryVariables.orderBy = root :: later ∧
          Json.Leads (.string "DESC") ["meta", "", "id"] root.toJson := by
  have segments : (Path.ofString "meta..id").segments = ["meta", "", "id"] := rfl
  obtain ⟨conditions, _, _, _, views⟩ := Path.leads_to_one_place "meta..id"
  have key : gappedView.KeyAt ["meta", "", "id"] := segments ▸ views gappedView rfl
  exact ⟨(conditions _).1, key, _, rfl, key.condition [] 10 (.int 7) _ rfl rfl,
    key.ordering [] 10 _ _ rfl⟩

end GridQuery
