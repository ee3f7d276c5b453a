import GridQuery.Paging.Rows
import GridQuery.Proofs.Named
import GridQuery.Proofs.Query.Merge

/-!
What columns show of the rows that their query returns. A request shows what the row holds under the
response key of its item, unless the row holds one of the names that the request gives elsewhere: a
name below the root of the item, or of no item at all, is looked up among the root keys all the
same.
-/

namespace GridQuery

namespace Selection

theorem responseKey_link (item : Selection) (rest : List Selection) :
    (link item rest).responseKey = item.responseKey := by
  cases rest <;> rfl

theorem responseKey_nameLast (name : String) (item : Selection) :
    (nameLast name item).responseKey =
      if item.selections.isEmpty then name else item.responseKey := by
  obtain ⟨field, own, path, filter, orderBy, limit, offset, distinctOn, selections⟩ := item
  cases selections <;> rfl

theorem isEmpty_nameLast (name : String) (item : Selection) :
    (nameLast name item).selections.isEmpty = item.selections.isEmpty := by
  obtain ⟨field, own, path, filter, orderBy, limit, offset, distinctOn, selections⟩ := item
  match selections with
  | [] => rfl
  | [_] => rfl
  | _ :: _ :: _ => rfl

/-- Merging keeps the response key of every item. -/
theorem exists_mem_merge {item : Selection} {items : List Selection} (member : item ∈ items) :
    ∃ merged ∈ merge items, merged.responseKey = item.responseKey := by
  induction items using apart_induction with
  | nil => cases member
  | cons first rest ih =>
    rw [merge_cons]
    have here : item.field = first.field → item.name = first.name →
        ∃ merged ∈ first.gather merge (first.target.alike rest) ::
          merge (first.target.apart rest), merged.responseKey = item.responseKey := by
      intro field name
      refine ⟨_, List.mem_cons_self .., ?_⟩
      rw [responseKey, responseKey, field, name]
      rfl
    rcases List.mem_cons.mp member with rfl | later
    · exact here rfl rfl
    · cases same : first.target.same item.target with
      | true =>
        obtain ⟨field, name⟩ := heading_of_same same
        exact here field name
      | false =>
        obtain ⟨merged, inside, key⟩ := ih (mem_apart.mpr ⟨later, same⟩)
        exact ⟨merged, List.mem_cons_of_mem _ inside, key⟩

end Selection

namespace FieldRequest

/-- The key under which the response holds the item of the request. -/
def responseKey? (request : FieldRequest) : Option String :=
  (Selection.ofRequest? request).map Selection.responseKey

/-- Whether a new name becomes the response key. -/
def namesRoot : FieldRequest → Bool
  | .field path => (Path.ofString path).rest.isEmpty
  | .hops chain => !chain.isEmpty
  | .renamed _ request => namesRoot request

/-- The names that do not become the response key, the last given one first. -/
def strayNames : FieldRequest → List String
  | .renamed name request => if request.namesRoot then [] else name :: request.strayNames
  | _ => []

/-- What the request shows of a row with the given keys. -/
def shownKey? (keys : List String) (request : FieldRequest) : Option String :=
  (request.strayNames.find? keys.contains).or request.responseKey?

variable {request : FieldRequest} {item : Selection} {name : String} {keys : List String}
  {row : List (String × Json)}

theorem exists_item_of_namesEnd (named : Selection.namesEnd request = true) :
    ∃ item, Selection.ofRequest? request = some item ∧
      item.selections.isEmpty = request.namesRoot := by
  induction request with
  | field path =>
    refine ⟨_, rfl, ?_⟩
    rw [namesRoot, Selection.ofPath]
    cases (Path.ofString path).rest <;> rfl
  | hops chain => cases named
  | renamed name request ih =>
    have below : Selection.namesEnd request = true := named
    obtain ⟨item, made, empty⟩ := ih below
    refine ⟨Selection.nameLast name item, ?_, ?_⟩
    · rw [Selection.ofRequest?, made, Option.map_some, if_pos below]
    · rw [Selection.isEmpty_nameLast, empty, namesRoot]

theorem isSome_item_of_not_namesEnd (named : Selection.namesEnd request = false) :
    (Selection.ofRequest? request).isSome = request.namesRoot := by
  induction request with
  | field path => cases named
  | hops chain => cases chain <;> rfl
  | renamed name request ih =>
    rw [Selection.ofRequest?, Option.isSome_map, ih named, namesRoot]

theorem responseKey?_renamed : responseKey? (.renamed name request) =
    if request.namesRoot then some name else request.responseKey? := by
  rw [responseKey?, responseKey?, Selection.ofRequest?]
  cases named : Selection.namesEnd request with
  | true =>
    obtain ⟨item, made, empty⟩ := exists_item_of_namesEnd named
    rw [made, ← empty]
    simp only [Option.map_some, if_pos, Selection.responseKey_nameLast]
    split <;> rfl
  | false =>
    rw [← isSome_item_of_not_namesEnd named]
    cases Selection.ofRequest? request <;> rfl

theorem shownKey?_renamed_root (root : request.namesRoot = true) :
    shownKey? keys (.renamed name request) = some name := by
  rw [shownKey?, responseKey?_renamed, strayNames, if_pos root, if_pos root, List.find?_nil,
    Option.none_or]

theorem shownKey?_renamed_stray (stray : request.namesRoot = false) :
    shownKey? keys (.renamed name request) =
      if name ∈ keys then some name else request.shownKey? keys := by
  rw [shownKey?, responseKey?_renamed, strayNames, stray]
  simp only [Bool.false_eq_true, if_false, List.find?_cons]
  split
  next member => rw [if_pos (List.contains_iff_mem.mp member), Option.some_or]
  next missed =>
    rw [if_neg fun member => by rw [List.contains_iff_mem.mpr member] at missed; cases missed]
    rfl

theorem found?_of_rootKey {key : String} (starts : request.rootKey = some key)
    (plain : ∀ name inner, request ≠ .renamed name inner) :
    request.found? row = (Named.find? key row).map fun value => (key, value) := by
  cases request with
  | field path | hops chain =>
    simp only [found?, starts]
    exact Option.map_eq_bind.symm
  | renamed name inner => exact absurd rfl (plain name inner)

/-- In a row that has exactly the keys, among them that of the request's item, a request finds the
value of the key that it shows. -/
theorem found?_eq (exact : ∀ key, key ∈ Named.names row ↔ key ∈ keys)
    (held : ∀ key, request.responseKey? = some key → key ∈ keys) :
    request.found? row =
      (request.shownKey? keys).bind fun key =>
        (Named.find? key row).map fun value => (key, value) := by
  induction request with
  | field path =>
    have key : shownKey? keys (.field path) = some (Path.ofString path).first :=
      congrArg some (Selection.responseKey_link ..)
    rw [key, found?_of_rootKey rfl (by rintro _ _ ⟨⟩), Option.bind_some]
  | hops chain =>
    cases chain with
    | nil => rfl
    | cons hop rest =>
      have key : shownKey? keys (.hops (hop :: rest)) = some hop.field :=
        congrArg some (Selection.responseKey_link ..)
      rw [key, found?_of_rootKey rfl (by rintro _ _ ⟨⟩), Option.bind_some]
  | renamed name request ih =>
    rw [found?]
    cases root : request.namesRoot with
    | true =>
      have kept : name ∈ keys := by
        refine held name ?_
        rw [responseKey?_renamed, if_pos root]
      obtain ⟨value, found⟩ := Named.exists_find?_iff.mpr ((exact name).mpr kept)
      rw [shownKey?_renamed_root root, Option.bind_some, found]
      rfl
    | false =>
      rw [shownKey?_renamed_stray root]
      by_cases stray : name ∈ keys
      · obtain ⟨value, found⟩ := Named.exists_find?_iff.mpr ((exact name).mpr stray)
        rw [if_pos stray, Option.bind_some, found]
        rfl
      · have absent : Named.find? name row = none :=
          Named.find?_eq_none_iff.mpr fun member => stray ((exact name).mp member)
        have below : ∀ key, request.responseKey? = some key → key ∈ keys := by
          intro key responds
          refine held key ?_
          rw [responseKey?_renamed, root]
          exact responds
        rw [if_neg stray, absent]
        exact ih below

theorem found?_eq_some_iff (exact : ∀ key, key ∈ Named.names row ↔ key ∈ keys)
    (held : ∀ key, request.responseKey? = some key → key ∈ keys) {key : String} {value : Json} :
    request.found? row = some (key, value) ↔
      request.shownKey? keys = some key ∧ Named.find? key row = some value := by
  rw [found?_eq exact held, Option.bind_eq_some_iff]
  constructor
  · rintro ⟨_, shown, made⟩
    obtain ⟨_, found, same⟩ := Option.map_eq_some_iff.mp made
    cases same
    exact ⟨shown, found⟩
  · rintro ⟨shown, found⟩
    exact ⟨key, shown, by rw [found, Option.map_some]⟩

end FieldRequest

namespace Column

/-- The response keys that the query of the columns asks for. -/
def rootKeys (columns : List Column) : List String :=
  (Selection.ofColumns columns).map Selection.responseKey

variable {columns : List Column} {column : Column} {request : FieldRequest}
  {row : List (String × Json)} {key : String} {value : Json}

theorem responseKey_mem_rootKeys (offered : column ∈ columns) (asked : request ∈ column.requests)
    (responds : request.responseKey? = some key) : key ∈ rootKeys columns := by
  obtain ⟨item, made, rfl⟩ := Option.map_eq_some_iff.mp responds
  have listed : item ∈ columns.flatMap fun column =>
      column.requests.filterMap Selection.ofRequest? :=
    List.mem_flatMap.mpr ⟨column, offered, List.mem_filterMap.mpr ⟨request, asked, made⟩⟩
  obtain ⟨merged, member, same⟩ := Selection.exists_mem_merge listed
  exact List.mem_map.mpr ⟨merged, member, same⟩

theorem mem_found_iff (exact : ∀ key, key ∈ Named.names row ↔ key ∈ rootKeys columns)
    (offered : column ∈ columns) :
    (key, value) ∈ column.requests.filterMap (FieldRequest.found? row) ↔
      Named.find? key row = some value ∧
        ∃ request ∈ column.requests, request.shownKey? (rootKeys columns) = some key := by
  have each (request : FieldRequest) (asked : request ∈ column.requests) :
      request.found? row = some (key, value) ↔
        request.shownKey? (rootKeys columns) = some key ∧ Named.find? key row = some value :=
    FieldRequest.found?_eq_some_iff exact fun _ => responseKey_mem_rootKeys offered asked
  rw [List.mem_filterMap]
  constructor
  · rintro ⟨request, asked, made⟩
    obtain ⟨shown, found⟩ := (each request asked).mp made
    exact ⟨found, request, asked, shown⟩
  · rintro ⟨found, request, asked, shown⟩
    exact ⟨request, asked, (each request asked).mpr ⟨shown, found⟩⟩

/-- A cell of a row that has exactly the root keys holds what its requests show of the row. -/
theorem find?_cell (exact : ∀ key, key ∈ Named.names row ↔ key ∈ rootKeys columns)
    (offered : column ∈ columns) : Named.find? key (column.cell row) = some value ↔
      Named.find? key row = some value ∧
        ∃ request ∈ column.requests, request.shownKey? (rootKeys columns) = some key := by
  constructor
  · intro found
    exact (mem_found_iff exact offered).mp
      (Named.mem_of_mem_ofList (Named.mem_of_find?_eq_some found))
  · intro shown
    have named : key ∈ Named.names (column.cell row) :=
      Named.mem_names_ofList.mpr
        (List.mem_map_of_mem ((mem_found_iff exact offered).mpr shown))
    obtain ⟨other, found⟩ := Named.exists_find?_iff.mpr named
    have same := (mem_found_iff exact offered).mp
      (Named.mem_of_mem_ofList (Named.mem_of_find?_eq_some found))
    rw [found, ← same.1, shown.1]

/-- Every request shows the row's value of its item's response key, unless one of its stray names is
a root key; and a cell holds nothing but what its requests show. -/
theorem cell_shows_requested (columns : List Column) (row : List (String × Json))
    (exact : ∀ key, key ∈ Named.names row ↔ key ∈ rootKeys columns) :
    ∀ column ∈ columns,
      (∀ request ∈ column.requests, ∀ item, Selection.ofRequest? request = some item →
        (∀ name ∈ request.strayNames, name ∉ rootKeys columns) →
          ∃ value, Named.find? item.responseKey row = some value ∧
            Named.find? item.responseKey (column.cell row) = some value) ∧
      ∀ key value, Named.find? key (column.cell row) = some value ↔
        Named.find? key row = some value ∧
          ∃ request ∈ column.requests, request.shownKey? (rootKeys columns) = some key := by
  intro column offered
  refine ⟨?_, fun key value => find?_cell exact offered⟩
  intro request asked item made clear
  have responds : request.responseKey? = some item.responseKey := congrArg _ made
  have shown : request.shownKey? (rootKeys columns) = some item.responseKey := by
    rw [FieldRequest.shownKey?, List.find?_eq_none.mpr ?_, Option.none_or, responds]
    intro name stray
    rw [List.contains_iff_mem]
    exact clear name stray
  have held := responseKey_mem_rootKeys offered asked responds
  obtain ⟨value, found⟩ := Named.exists_find?_iff.mpr ((exact _).mpr held)
  exact ⟨value, found, (find?_cell exact offered).mpr ⟨found, request, asked, shown⟩⟩

/-- A name for a field below the root. -/
def writer : Column :=
  ⟨"writer", none, [.renamed "penName" (.field "author.name")]⟩

def authorColumns : List Column :=
  [writer, ⟨"open", none, [.renamed "openTasks" (.hops [.plain "tasks"]), .field "id"]⟩]

def authorRow : List (String × Json) :=
  [("author", .single "penName" (.string "Ann")), ("id", .int 7), ("openTasks", .array [])]

theorem author_shown :
    (∀ key, key ∈ Named.names authorRow ↔ key ∈ rootKeys authorColumns) ∧
      "penName" ∉ rootKeys authorColumns ∧
      ∃ value, Named.find? "author" authorRow = some value ∧
        Named.find? "author" (writer.cell authorRow) = some value := by
  have keys : rootKeys authorColumns = ["author", "openTasks", "id"] := by decide +kernel
  have exact : ∀ key, key ∈ Named.names authorRow ↔ key ∈ rootKeys authorColumns := by
    intro key
    rw [keys]
    simp [authorRow, Named.names, or_comm]
  have clear : "penName" ∉ rootKeys authorColumns := by
    rw [keys]
    decide
  have shown := cell_shows_requested authorColumns authorRow exact writer (List.mem_cons_self ..)
  refine ⟨exact, clear, shown.1 _ (List.mem_singleton_self _) _ rfl ?_⟩
  exact List.forall_mem_singleton.mpr clear

/-- The first column's name for a field below its root is a root key of the second one; the third
one names no item. -/
def ownerColumns : List Column :=
  [⟨"writer", none, [.renamed "owner" (.field "author.name")]⟩,
    ⟨"owner", none, [.hops [.plain "owner"]]⟩,
    ⟨"none", none, [.renamed "owner" (.hops [])]⟩]

def ownerRow : List (String × Json) :=
  [("author", .single "owner" (.string "Ann")), ("owner", .string "Bob")]

/-- The first column shows the value of the second one, and so does the third one. -/
theorem ownerRow_misread :
    rootKeys ownerColumns = ["author", "owner"] ∧ Named.names ownerRow = ["author", "owner"] ∧
      (ownerColumns.map fun column => column.cell ownerRow) =
        [[("owner", .string "Bob")], [("owner", .string "Bob")], [("owner", .string "Bob")]] :=
  ⟨by decide +kernel, rfl, rfl⟩

end Column

end GridQuery
