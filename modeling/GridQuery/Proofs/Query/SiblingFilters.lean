import GridQuery.Proofs.Query.FilterText
import GridQuery.Proofs.Query.TargetPaths

/-!
Siblings in the items of a view are told apart by what they are written as. Their filters are those
of the hops in the columns, so they are read, and filters with the same text are merged unless a
constraint is given as a list of fewer than two comparisons in one of them only.
-/

namespace GridQuery

namespace FieldRequest

/-- The filters of all hops. -/
def filters : FieldRequest → List Condition
  | .field _ => []
  | .hops chain => chain.filterMap Hop.filter
  | .renamed _ request => request.filters

/-- The filters of a request that is read can be read again. -/
theorem filters_reread : ∀ {request : FieldRequest}, ofJson request.toJson = .ok request →
    ∀ condition ∈ request.filters, Read.inlineCondition condition.toJson = .ok condition
  | .field _, _ => nofun
  | .hops chain, read => by
    obtain ⟨tag, found, variant, known, draft, filled, made⟩ := ofJson_eq_ok.mp read
    cases found
    cases known
    rw [List.foldlM_cons] at filled
    obtain ⟨next, first, filled⟩ := bind_eq_ok.mp filled
    obtain ⟨slot, taken, ⟨⟩⟩ := bind_eq_ok.mp first
    cases filled
    obtain ⟨_, hops, listed, rfl⟩ := Read.fill_eq_ok.mp taken
    cases made
    intro condition inside
    obtain ⟨hop, member, filtered⟩ := List.mem_filterMap.mp inside
    obtain ⟨documents, _, listed⟩ := Read.list_eq_ok.mp listed
    obtain ⟨document, _, made⟩ := exists_of_mem_mapM listed member
    exact Hop.settled_filter made condition filtered
  | .renamed name request, read => by
    obtain ⟨tag, found, variant, known, draft, filled, made⟩ := ofJson_eq_ok.mp read
    cases found
    cases known
    rw [List.foldlM_cons] at filled
    obtain ⟨next, first, filled⟩ := bind_eq_ok.mp filled
    obtain ⟨slot, _, ⟨⟩⟩ := bind_eq_ok.mp first
    rw [List.foldlM_cons] at filled
    obtain ⟨next, second, filled⟩ := bind_eq_ok.mp filled
    obtain ⟨inner, taken, ⟨⟩⟩ := bind_eq_ok.mp second
    cases filled
    obtain ⟨_, request', reread, rfl⟩ := Read.fill_eq_ok.mp taken
    obtain ⟨_, _, made⟩ := bind_eq_ok.mp made
    cases made
    exact fun condition inside => filters_reread reread condition inside

end FieldRequest

namespace Column

def filters (column : Column) : List Condition :=
  column.requests.flatMap FieldRequest.filters

/-- The filters of a column that is read can be read again. -/
theorem filters_reread {document : Json} {column : Column} (read : ofJson document = .ok column) :
    ∀ condition ∈ column.filters, Read.inlineCondition condition.toJson = .ok condition := by
  obtain ⟨members, _, read⟩ := bind_eq_ok.mp read
  obtain ⟨draft, filled, read⟩ := bind_eq_ok.mp read
  obtain ⟨id, _, read⟩ := bind_eq_ok.mp read
  cases read
  have settled := foldlM_preserves (P := fun draft => Read.Settled _ _ draft.requests) filled
    Read.settled_none fun _ _ _ _ => settled_put
  intro condition inside
  obtain ⟨request, member, inside⟩ := List.mem_flatMap.mp inside
  obtain ⟨documents, _, listed⟩ := Read.list_eq_ok.mp settled.getD
  obtain ⟨document, _, made⟩ := exists_of_mem_mapM listed member
  exact FieldRequest.filters_reread (FieldRequest.steady made) condition inside

theorem filters_reread_of_list {document : Json} {columns : List Column} {column : Column}
    {condition : Condition} (read : Read.list ofJson document = .ok columns)
    (among : column ∈ columns) (listed : condition ∈ column.filters) :
    Read.inlineCondition condition.toJson = .ok condition := by
  obtain ⟨documents, _, read⟩ := Read.list_eq_ok.mp read
  obtain ⟨source, _, made⟩ := exists_of_mem_mapM read among
  exact filters_reread made condition listed

end Column

namespace Selection

mutual

/-- The filters of an item and of all items below it. -/
def filters : Selection → List Condition
  | ⟨_, _, _, filter, _, _, _, _, selections⟩ => filter.toList ++ filtersOf selections

def filtersOf : List Selection → List Condition
  | [] => []
  | item :: rest => filters item ++ filtersOf rest

end

theorem filters_eq (item : Selection) :
    item.filters = item.filter.toList ++ filtersOf item.selections := by
  cases item
  rw [filters]

theorem filters_link {last : Selection} {rest : List Selection}
    (single : ∀ item ∈ last :: rest, item.selections = []) :
    (link last rest).filters = (last :: rest).flatMap fun item => item.filter.toList := by
  induction rest generalizing last with
  | nil =>
    have none : last.selections = [] := single last (List.mem_singleton_self _)
    rw [link, filters_eq, none, filtersOf, List.flatMap_singleton, List.append_nil]
  | cons next rest ih =>
    rw [link, filters_eq, filtersOf, filtersOf, List.append_nil,
      ih (List.forall_mem_cons.mp single).2]
    conv_rhs => rw [List.flatMap_cons]

mutual

/-- A name is no filter. -/
theorem filters_nameLast (name : String) : ∀ item, (nameLast name item).filters = item.filters
  | ⟨field, own, path, filter, orderBy, limit, offset, distinctOn, selections⟩ => by
    rw [nameLast, filters, filters, filtersOf_nameLastOf name selections]

theorem filtersOf_nameLastOf (name : String) :
    ∀ items, filtersOf (nameLastOf name items) = filtersOf items
  | [] => rfl
  | [item] => by
    rw [nameLastOf, filtersOf, filtersOf, filtersOf, filtersOf, filters_nameLast name item]
  | item :: next :: rest => by
    rw [nameLastOf, filtersOf, filtersOf, filtersOf_nameLastOf name (next :: rest)]

end

/-- The filters of the item that a request stands for are those of its hops. -/
theorem filters_ofRequest? : ∀ {request : FieldRequest} {item : Selection},
    ofRequest? request = some item → item.filters = request.filters
  | .field path, _, made => by
    cases made
    rw [ofPath, filters_link]
    · simp [FieldRequest.filters, plain]
    · exact List.forall_mem_cons.mpr ⟨rfl, List.forall_mem_map.mpr fun _ _ => rfl⟩
  | .hops [], _, made => by cases made
  | .hops (hop :: rest), _, made => by
    cases made
    rw [filters_link]
    · rw [FieldRequest.filters, List.filterMap_eq_flatMap_toList, ← List.map_cons, List.flatMap_map]
      rfl
    · exact List.forall_mem_cons.mpr ⟨rfl, List.forall_mem_map.mpr fun _ _ => rfl⟩
  | .renamed name request, _, made => by
    obtain ⟨item, inner, rfl⟩ := Option.map_eq_some_iff.mp made
    have kept : item.filters = request.filters := filters_ofRequest? inner
    refine Eq.trans ?_ kept
    split
    · exact filters_nameLast name item
    · rw [filters_eq, filters_eq]

theorem mem_filtersOf {items : List Selection} {condition : Condition} :
    condition ∈ filtersOf items ↔ ∃ item ∈ items, condition ∈ item.filters := by
  induction items with
  | nil => simp [filtersOf]
  | cons item rest ih => simp [filtersOf, ih]

mutual

theorem mem_filters_of_visits : ∀ (item : Selection), ∀ visit ∈ visits item,
    ∀ target ∈ visit.path, ∀ condition ∈ target.filter, condition ∈ item.filters
  | ⟨field, name, path, filter, orderBy, limit, offset, distinctOn, selections⟩ => by
    rw [visits, filters]
    have own : ∀ condition ∈ filter, condition ∈ filter.toList ++ filtersOf selections :=
      fun condition given => List.mem_append_left _ (Option.mem_toList.mpr given)
    refine List.forall_mem_cons.mpr ⟨List.forall_mem_singleton.mpr own, ?_⟩
    refine List.forall_mem_map.mpr fun visit inside => List.forall_mem_cons.mpr ⟨own, ?_⟩
    exact fun target below condition given => List.mem_append_right _
      (mem_filtersOf_of_walk selections visit inside target below condition given)

/-- The filters on target paths are filters of the items. -/
theorem mem_filtersOf_of_walk : ∀ (items : List Selection), ∀ visit ∈ walk items,
    ∀ target ∈ visit.path, ∀ condition ∈ target.filter, condition ∈ filtersOf items
  | [] => nofun
  | item :: rest => by
    rw [walk, filtersOf]
    refine List.forall_mem_append.mpr ⟨fun visit inside target among condition given => ?_,
      fun visit inside target among condition given => ?_⟩
    · exact List.mem_append_left _
        (mem_filters_of_visits item visit inside target among condition given)
    · exact List.mem_append_right _
        (mem_filtersOf_of_walk rest visit inside target among condition given)

end

mutual

theorem mem_visits_below : ∀ (item : Selection), ∀ visit ∈ visits item,
    ∀ inner ∈ visit.item.selections, ⟨visit.path ++ [inner.target], inner⟩ ∈ visits item
  | ⟨field, name, path, filter, orderBy, limit, offset, distinctOn, selections⟩ => by
    rw [visits]
    refine List.forall_mem_cons.mpr ⟨fun inner inside => ?_, List.forall_mem_map.mpr ?_⟩
    · exact List.mem_cons_of_mem _ (List.mem_map.mpr ⟨_, mem_walk_of_mem inside, rfl⟩)
    · intro visit visited inner inside
      exact List.mem_cons_of_mem _
        (List.mem_map.mpr ⟨_, mem_walk_below selections visit visited inner inside, rfl⟩)

theorem mem_walk_below : ∀ (items : List Selection), ∀ visit ∈ walk items,
    ∀ inner ∈ visit.item.selections, ⟨visit.path ++ [inner.target], inner⟩ ∈ walk items
  | [] => nofun
  | item :: rest => by
    rw [walk]
    exact List.forall_mem_append.mpr
      ⟨fun visit visited inner inside =>
        List.mem_append_left _ (mem_visits_below item visit visited inner inside),
      fun visit visited inner inside =>
        List.mem_append_right _ (mem_walk_below rest visit visited inner inside)⟩

end

theorem mem_walk_of_mem_siblings {items : List Selection} {level : Level} {item : Selection}
    (member : level ∈ siblings items) (inside : item ∈ level.items) :
    ⟨level.path ++ [item.target], item⟩ ∈ walk items := by
  rcases List.mem_cons.mp member with rfl | below
  · exact mem_walk_of_mem inside
  · obtain ⟨visit, visited, rfl⟩ := List.mem_map.mp below
    exact mem_walk_below items visit visited item inside

/-- The items that the columns ask for, before they are merged. -/
def requested (columns : List Column) : List Selection :=
  columns.flatMap fun column => column.requests.filterMap ofRequest?

/-- The filters that are requested are those of the columns. -/
theorem exists_column_of_visit {columns : List Column} {visit : Visit} {target : Target}
    {condition : Condition} (visited : visit ∈ walk (requested columns))
    (among : target ∈ visit.path) (filtered : condition ∈ target.filter) :
    ∃ column ∈ columns, condition ∈ column.filters := by
  have listed := mem_filtersOf_of_walk _ visit visited target among condition filtered
  obtain ⟨item, made, listed⟩ := mem_filtersOf.mp listed
  obtain ⟨column, inside, made⟩ := List.mem_flatMap.mp made
  obtain ⟨request, asked, made⟩ := List.mem_filterMap.mp made
  rw [filters_ofRequest? made] at listed
  exact ⟨column, inside, List.mem_flatMap.mpr ⟨request, asked, listed⟩⟩

/-- The filter of an item in the merged items of columns is a filter of one of the columns. -/
theorem exists_column_of_filter {columns : List Column} {level : Level} {item : Selection}
    {condition : Condition} (member : level ∈ siblings (ofColumns columns))
    (inside : item ∈ level.items) (filtered : item.filter = some condition) :
    ∃ column ∈ columns, condition ∈ column.filters := by
  obtain ⟨source, visited, among⟩ := exists_source_of_mem_walk_merge _
    (mem_walk_of_mem_siblings member inside) item.target
    (List.mem_append_right _ (List.mem_singleton_self _))
  exact exists_column_of_visit visited among filtered

theorem same_of_text {document document' : Json} {left right : Condition}
    (read : Read.inlineCondition document = .ok left)
    (read' : Read.inlineCondition document' = .ok right)
    (names : ∀ name ∈ left.names, Text.isName name = true)
    (names' : ∀ name ∈ right.names, Text.isName name = true)
    (text : (InputValue.ofCondition left).text = (InputValue.ofCondition right).text)
    (marks : left.shortLists = right.shortLists) : left.same right = true := by
  obtain ⟨read, keys⟩ := Read.inlineCondition_eq_ok.mp read
  obtain ⟨read', keys'⟩ := Read.inlineCondition_eq_ok.mp read'
  have legible := (Condition.legible_of_read read).1
  have legible' := (Condition.legible_of_read read').1
  exact Condition.same_of_text legible legible' ⟨names, keys⟩ ⟨names', keys'⟩ text marks

/-- Filters that are written alike are equal if short lists stand in the same places, so siblings
whose filters are written alike have short lists in different places. -/
theorem filters_told_by_text {document : Json} {columns : List Column}
    (read : Read.list Column.ofJson document = .ok columns)
    (names : ∀ column ∈ columns, ∀ condition ∈ column.filters, ∀ name ∈ condition.names,
      Text.isName name = true) :
    (∀ level ∈ siblings (ofColumns columns), level.items.Pairwise fun first second =>
      first.field = second.field → first.name = second.name → first.path = second.path →
        ∀ left ∈ first.filter, ∀ right ∈ second.filter,
          (InputValue.ofCondition left).text = (InputValue.ofCondition right).text →
            left.shortLists ≠ right.shortLists) ∧
    ∀ filter filter' left right, Read.inlineCondition filter = .ok left →
      Read.inlineCondition filter' = .ok right →
      (∀ name ∈ left.names, Text.isName name = true) →
      (∀ name ∈ right.names, Text.isName name = true) →
      (InputValue.ofCondition left).text = (InputValue.ofCondition right).text →
        left.shortLists = right.shortLists → left.same right = true := by
  refine ⟨fun level member => ?_, fun _ _ _ _ => same_of_text⟩
  have reread : ∀ item ∈ level.items, ∀ condition ∈ item.filter,
      Read.inlineCondition condition.toJson = .ok condition ∧
        ∀ name ∈ condition.names, Text.isName name = true := by
    intro item inside condition filtered
    obtain ⟨column, among, listed⟩ := exists_column_of_filter member inside filtered
    exact ⟨Column.filters_reread_of_list read among listed, names column among condition listed⟩
  refine (merge_distinct _ level member).imp_of_mem ?_
  intro first second inside inside' differs fields aliases paths left filtered right filtered' text
    marks
  obtain ⟨leftRead, leftNames⟩ := reread first inside left filtered
  obtain ⟨rightRead, rightNames⟩ := reread second inside' right filtered'
  have same := same_of_text leftRead rightRead leftNames rightNames text marks
  rw [Option.mem_def] at filtered filtered'
  simp [Target.same, target, fields, aliases, paths, filtered, filtered', same] at differs

def half : Json :=
  .number (.double ⟨false, 0x3FE * normalUnit, by decide⟩)

/-- Half a point at least, and less than five points, as one object. -/
def pointsDocument : Json :=
  .single "points" (.object [("_gte", half), ("_lt", .int 5)])

/-- The same as a list. -/
def pointsListDocument : Json :=
  .single "points" (.array [.single "_gte" half, .single "_lt" (.int 5)])

def pointsBounds : List Comparison :=
  [⟨.gte, half⟩, ⟨.lt, .int 5⟩]

def singleScore : Condition :=
  .field "score" (.comparison ⟨.eq, .int 1⟩)

/-- The same comparison in a list of its own. -/
def listedScore : Condition :=
  .field "score" (.comparisons [⟨.eq, .int 1⟩])

def tasksRequest (filter : Json) : Json :=
  .object [("configs", .array [.object [("field", .string "tasks"), ("where", filter)]]),
    ("type", .string "queryConfigs")]

/-- A column that asks for the same tasks twice. -/
def twiceDocument : Json :=
  .array [.object [
    ("data", .array [tasksRequest singleScore.toJson, tasksRequest listedScore.toJson]),
    ("id", .string "tasks")]]

def twice : List Column :=
  [⟨"tasks", none, [singleScore, listedScore].map fun filter =>
    .hops [{ Hop.plain "tasks" with filter := some filter }]⟩]

theorem twice_told_by_text :
    Read.list Column.ofJson twiceDocument = .ok twice ∧
      (∀ column ∈ twice, ∀ condition ∈ column.filters, ∀ name ∈ condition.names,
        Text.isName name = true) ∧
      (∀ level ∈ siblings (ofColumns twice), level.items.Pairwise fun first second =>
        first.field = second.field → first.name = second.name → first.path = second.path →
          ∀ left ∈ first.filter, ∀ right ∈ second.filter,
            (InputValue.ofCondition left).text = (InputValue.ofCondition right).text →
              left.shortLists ≠ right.shortLists) ∧
      (Condition.field "points" (.comparisonSet pointsBounds)).same
        (.field "points" (.comparisons pointsBounds)) = true := by
  have read : Read.list Column.ofJson twiceDocument = .ok twice := rfl
  have names : ∀ column ∈ twice, ∀ condition ∈ column.filters, ∀ name ∈ condition.names,
      Text.isName name = true := by decide
  obtain ⟨siblings, filters⟩ := filters_told_by_text read names
  exact ⟨read, names, siblings,
    filters pointsDocument pointsListDocument _ _ rfl rfl (by decide) (by decide) rfl rfl⟩

/-- A comparison and a list of just this comparison are written alike and are not equal, so both
stay in the items of a view. -/
theorem listedScore_stays :
    (InputValue.ofCondition singleScore).text = "\x7bscore: \x7b_eq: 1\x7d\x7d" ∧
      (InputValue.ofCondition listedScore).text = "\x7bscore: \x7b_eq: 1\x7d\x7d" ∧
      singleScore.same listedScore = false ∧
      (¬ ∀ document document' left right, Read.inlineCondition document = .ok left →
        Read.inlineCondition document' = .ok right →
        (∀ name ∈ left.names, Text.isName name = true) →
        (∀ name ∈ right.names, Text.isName name = true) →
        (InputValue.ofCondition left).text = (InputValue.ofCondition right).text →
          left.same right = true) ∧
      ¬ ∀ document columns, Read.list Column.ofJson document = .ok columns →
        (∀ column ∈ columns, ∀ condition ∈ column.filters, ∀ name ∈ condition.names,
          Text.isName name = true) →
        ∀ level ∈ siblings (ofColumns columns), level.items.Pairwise fun first second =>
          first.field = second.field → first.name = second.name → first.path = second.path →
            ∀ left ∈ first.filter, ∀ right ∈ second.filter,
              (InputValue.ofCondition left).text ≠ (InputValue.ofCondition right).text := by
  refine ⟨by decide, by decide, rfl, fun equal => ?_, fun differ => ?_⟩
  · cases equal singleScore.toJson listedScore.toJson _ _ rfl rfl (by decide) (by decide) rfl
  · have here := differ twiceDocument twice rfl (by decide) ⟨[], ofColumns twice⟩
      (List.mem_cons_self ..)
    exact (List.pairwise_pair.mp here) rfl rfl rfl _ rfl _ rfl rfl

end Selection

end GridQuery
