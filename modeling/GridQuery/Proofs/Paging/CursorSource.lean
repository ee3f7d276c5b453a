import GridQuery.Paging.Rows
import GridQuery.Proofs.Query.EnsuredPath

/-!
Where the cursor of a page comes from. Response keys are never compared, so a column may give some
field the name under which the cursor is looked up. This is the only way to come by another value:
neither merging nor adding the pagination key gives a field a new name.
-/

namespace GridQuery

namespace Selection

/-- What stands under the first segment is the field of that segment and has no new name, and so on
for the other segments among its selections. -/
def OwnFields : List String → List Selection → Prop
  | [], _ => True
  | segment :: rest, items => ∀ item ∈ items, item.responseKey = segment →
    (item.field = segment ∧ item.name = none) ∧ OwnFields rest item.selections

instance decidableOwnFields : ∀ segments items, Decidable (OwnFields segments items)
  | [], _ => .isTrue trivial
  | segment :: rest, items =>
    have : ∀ items, Decidable (OwnFields rest items) := decidableOwnFields rest
    inferInstanceAs (Decidable (∀ item ∈ items, item.responseKey = segment →
      (item.field = segment ∧ item.name = none) ∧ OwnFields rest item.selections))

/-- The chains of fields that stand under a chain of response keys. -/
def fieldsUnder : List String → List Selection → List (List String)
  | [], _ => [[]]
  | key :: rest, items =>
    (items.filter fun item => item.responseKey = key).flatMap fun item =>
      (fieldsUnder rest item.selections).map fun fields => item.field :: fields

/-- What a row has under the response keys, the collection holds at fields that stand under them. -/
def Answers (holds : List String → Json → Prop) (keys : List String) (items : List Selection)
    (row : Json) : Prop :=
  ∀ value, row.atSegments? keys = some value → ∃ fields ∈ fieldsUnder keys items, holds fields value

variable {segment : String} {segments : List String} {item : Selection}
variable {items first second rest : List Selection}

theorem ownFields_nil (segments : List String) : OwnFields segments [] := by
  cases segments with
  | nil => trivial
  | cons segment segments => exact fun _ => nofun

theorem ownFields_single : OwnFields (segment :: segments) [item] ↔
    (item.responseKey = segment →
      (item.field = segment ∧ item.name = none) ∧ OwnFields segments item.selections) := by
  rw [OwnFields]
  exact List.forall_mem_singleton

/-- Whether fields stand under their own segments is told item by item. -/
theorem ownFields_iff_forall (segments : List String) (items : List Selection) :
    OwnFields segments items ↔ ∀ item ∈ items, OwnFields segments [item] := by
  cases segments with
  | nil => exact iff_of_true trivial fun _ _ => trivial
  | cons segment segments =>
    simp only [ownFields_single]
    exact Iff.rfl

theorem ownFields_append : OwnFields segments (first ++ second) ↔
    OwnFields segments first ∧ OwnFields segments second := by
  rw [ownFields_iff_forall, List.forall_mem_append, ← ownFields_iff_forall,
    ← ownFields_iff_forall]

theorem ownFields_cons : OwnFields segments (item :: rest) ↔
    OwnFields segments [item] ∧ OwnFields segments rest := by
  rw [← ownFields_append, List.singleton_append]

theorem ownFields_children :
    OwnFields segments (children items) ↔ ∀ item ∈ items, OwnFields segments item.selections := by
  induction items with
  | nil => exact iff_of_true (ownFields_nil segments) fun _ => nofun
  | cons item rest ih =>
    rw [children_cons, ownFields_append, ih, List.forall_mem_cons]

theorem ownFields_split (target : Target) : OwnFields segments items ↔
    OwnFields segments (target.alike items) ∧ OwnFields segments (target.apart items) := by
  rw [ownFields_iff_forall, ownFields_iff_forall segments (target.alike items),
    ownFields_iff_forall segments (target.apart items)]
  constructor
  · intro own
    exact ⟨fun item member => own item (List.mem_filter.mp member).1,
      fun item member => own item (mem_apart.mp member).1⟩
  · intro own item member
    cases same : target.same item.target with
    | true => exact own.1 item (List.mem_filter.mpr ⟨member, same⟩)
    | false => exact own.2 item (mem_apart.mpr ⟨member, same⟩)

/-- A gathered item stands where its items stand, and holds what they hold below. -/
theorem ownFields_gather
    (below : ∀ items, OwnFields segments (merge items) ↔ OwnFields segments items) :
    OwnFields (segment :: segments) [item.gather merge (item.target.alike rest)] ↔
      OwnFields (segment :: segments) (item :: item.target.alike rest) := by
  have heading : ∀ other ∈ item :: item.target.alike rest,
      other.field = item.field ∧ other.name = item.name := by
    intro other member
    cases List.mem_cons.mp member with
    | inl same =>
      rw [same]
      exact ⟨rfl, rfl⟩
    | inr member => exact heading_of_same (List.mem_filter.mp member).2
  have selections : OwnFields segments (item.gather merge (item.target.alike rest)).selections ↔
      ∀ other ∈ item :: item.target.alike rest, OwnFields segments other.selections := by
    rw [selections_gather, below, ownFields_children]
  have gathered : OwnFields (segment :: segments) [item.gather merge (item.target.alike rest)] ↔
      (item.responseKey = segment → (item.field = segment ∧ item.name = none) ∧
        ∀ other ∈ item :: item.target.alike rest, OwnFields segments other.selections) := by
    rw [ownFields_single, selections]
    rfl
  rw [gathered]
  constructor
  · intro own other member key
    obtain ⟨field, name⟩ := heading other member
    rw [responseKey, field, name] at key
    rw [field, name]
    exact ⟨(own key).1, (own key).2 other member⟩
  · intro own key
    refine ⟨(own item (List.mem_cons_self ..) key).1, ?_⟩
    intro other member
    obtain ⟨field, name⟩ := heading other member
    apply And.right
    apply own other member
    rw [responseKey, field, name]
    exact key

/-- Merging gives no field a new name and moves none under another. -/
theorem ownFields_merge (segments : List String) (items : List Selection) :
    OwnFields segments (merge items) ↔ OwnFields segments items := by
  induction segments generalizing items with
  | nil => exact Iff.rfl
  | cons segment segments below =>
    induction items using apart_induction with
    | nil => exact Iff.rfl
    | cons item rest ih =>
      rw [merge_cons, ownFields_cons, ownFields_gather below, ih, ownFields_cons, and_assoc,
        ← ownFields_split, ← ownFields_cons]

theorem ownFields_chain (segments : List String) (field : String) (rest : List String) :
    OwnFields segments [link (plain field) (rest.map plain)] := by
  induction segments generalizing field rest with
  | nil => trivial
  | cons segment segments ih =>
    rw [ownFields_single]
    intro key
    cases rest with
    | nil => exact ⟨⟨key, rfl⟩, ownFields_nil segments⟩
    | cons next more => exact ⟨⟨key, rfl⟩, ih next more⟩

/-- Putting a path among the selections of columns adds no field under another response key. -/
theorem ownFields_ensurePath (segments : List String) (columns : List Column) (path : String) :
    OwnFields segments (ensurePath (ofColumns columns) path) ↔
      OwnFields segments (requested columns) := by
  change OwnFields segments (ensurePath (merge (requested columns)) path) ↔ _
  cases ensurePath_merge (requested columns) path with
  | inl kept => rw [kept.1, ownFields_merge]
  | inr added =>
    rw [added, ownFields_merge, ownFields_append]
    exact and_iff_left (ownFields_chain _ _ _)

theorem eq_of_mem_fieldsUnder (own : OwnFields segments items) :
    ∀ fields ∈ fieldsUnder segments items, fields = segments := by
  induction segments generalizing items with
  | nil => exact fun fields => List.mem_singleton.mp
  | cons segment segments ih =>
    intro fields member
    obtain ⟨item, inside, below⟩ := List.mem_flatMap.mp member
    obtain ⟨further, deeper, same⟩ := List.mem_map.mp below
    obtain ⟨listed, key⟩ := List.mem_filter.mp inside
    obtain ⟨plain, deep⟩ := own item listed (of_decide_eq_true key)
    rw [← same, plain.1, ih deep further deeper]

end Selection

theorem nextCursor?_eq_some {rows : List Json} {key : String} {rowLimit : Nat} {cursor : Json}
    (next : nextCursor? rows key rowLimit = some cursor) :
    ∃ row ∈ rows, row.atPath? key = some cursor := by
  unfold nextCursor? at next
  split at next
  next short => cases next
  next full =>
    split at next
    next => cases next
    next =>
      obtain ⟨row, last, found⟩ := Option.bind_eq_some_iff.mp next
      exact ⟨row, List.mem_of_getLast? last, found⟩

namespace View

open Selection (OwnFields Answers requested)

def keySegments (view : View) : List String :=
  (Path.ofString view.paginationKey).segments

/-- What stands under the pagination key in the document is the key's own fields exactly if no
column gives another field there such a name, and then every cursor is a value of these fields. -/
theorem cursor_of_ownFields (view : View) :
    (OwnFields view.keySegments view.document.selections ↔
      OwnFields view.keySegments (requested view.columns)) ∧
    (OwnFields view.keySegments (requested view.columns) →
      ∀ holds rows rowLimit cursor,
        (∀ row ∈ rows, Answers holds view.keySegments view.document.selections row) →
          nextCursor? rows view.paginationKey rowLimit = some cursor →
            holds view.keySegments cursor) := by
  have document : OwnFields view.keySegments view.document.selections ↔
      OwnFields view.keySegments (requested view.columns) :=
    Selection.ownFields_ensurePath _ _ _
  refine ⟨document, ?_⟩
  intro own holds rows rowLimit cursor answered next
  obtain ⟨row, member, found⟩ := nextCursor?_eq_some next
  obtain ⟨fields, under, held⟩ := answered row member cursor found
  rwa [Selection.eq_of_mem_fieldsUnder (document.mpr own) fields under] at held

/-- A column with the new name `id` for a field, but not where the pagination key lies. -/
def writerView : View where
  title := none
  collection := "events"
  columns := [⟨"writer", none, [.renamed "id" (.field "author.name"), .field "meta.note"]⟩]
  schema := .empty
  conditionType := "events_bool_exp"
  orderType := "[events_order_by!]"
  paginationKey := "meta.id"
  staticConditions := []
  staticOrder := []

/-- An event as the collection holds it. -/
def storedEvent : Json :=
  .object [("author", .single "name" (.string "Ann")),
    ("meta", .object [("id", .int 7), ("note", .null)])]

def answeredEvent : Json :=
  .object [("author", .single "id" (.string "Ann")),
    ("meta", .object [("id", .int 7), ("note", .null)])]

theorem writerView_cursor :
    OwnFields writerView.keySegments (requested writerView.columns) ∧
      OwnFields writerView.keySegments writerView.document.selections ∧
      nextCursor? [answeredEvent] "meta.id" 1 = some (.int 7) ∧
      storedEvent.atSegments? writerView.keySegments = some (.int 7) := by
  have own : OwnFields writerView.keySegments (requested writerView.columns) := by
    decide +kernel
  have answered : ∀ row ∈ [answeredEvent],
      Answers (fun fields value => storedEvent.atSegments? fields = some value)
        writerView.keySegments writerView.document.selections row := by
    intro row member value found
    rw [List.mem_singleton.mp member] at found
    exact ⟨["meta", "id"], by decide +kernel, found⟩
  obtain ⟨document, cursor⟩ := cursor_of_ownFields writerView
  refine ⟨own, document.mpr own, rfl, ?_⟩
  exact cursor own _ [answeredEvent] 1 (.int 7) answered rfl

/-- A column whose new name for a field is the pagination key. -/
def renamedDocument : Json :=
  .object [("collectionName", .string "events"), ("paginationKey", .string "id"),
    ("boolExpType", .string "events_bool_exp"), ("orderByType", .string "[events_order_by!]"),
    ("columnDefinitions", .array [.object [("id", .string "name"),
      ("data", .array [.object [("type", .string "fieldAlias"), ("alias", .string "id"),
        ("query", .object [("type", .string "field"), ("path", .string "name")])]])]])]

def renamedView : View where
  title := none
  collection := "events"
  columns := [⟨"name", none, [.renamed "id" (.field "name")]⟩]
  schema := .empty
  conditionType := "events_bool_exp"
  orderType := "[events_order_by!]"
  paginationKey := "id"
  staticConditions := []
  staticOrder := []

/-- The view is accepted, its document has the name and the key under one response key, and a
row that answers with the name makes it the cursor. -/
theorem renamedView_cursor :
    ofJson renamedDocument = .ok renamedView ∧
      renamedView.document.selections =
        [{ Selection.plain "name" with name := some "id" }, Selection.plain "id"] ∧
      ¬ OwnFields renamedView.keySegments renamedView.document.selections ∧
      Answers (fun fields value => fields = ["name"] ∧ value = .string "Ann")
        renamedView.keySegments renamedView.document.selections (.single "id" (.string "Ann")) ∧
      nextCursor? [.single "id" (.string "Ann")] "id" 1 = some (.string "Ann") := by
  refine ⟨rfl, rfl, by decide +kernel, ?_, rfl⟩
  intro value found
  exact ⟨["name"], by decide +kernel, rfl, (Option.some.inj found).symm⟩

end View

end GridQuery
