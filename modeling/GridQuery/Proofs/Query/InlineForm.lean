import GridQuery.Proofs.Query.DistinctKeys
import GridQuery.Query.OrderTerm

/-!
Argument values read as JSON. A condition or an ordering that is written into a document says the
same as its JSON form, which travels in the variables. Only a list of comparisons is not told by the
document: it is written like a set.
-/

namespace GridQuery

namespace InputValue

mutual

/-- The JSON value that is written: enum names are texts, and of two entries of an object with one
key the later counts. A reference to a variable is no value. -/
def json? : InputValue → Option Json
  | .reference _ => none
  | .enumName name => some (.string name)
  | .scalar value => some value
  | .list items => (jsonOfItems? items).map .array
  | .object entries => (jsonOfEntries? entries).map fun members => .object (Named.ofList members)

def jsonOfItems? : List InputValue → Option (List Json)
  | [] => some []
  | item :: rest => do return (← item.json?) :: (← jsonOfItems? rest)

def jsonOfEntries? : List (String × InputValue) → Option (List (String × Json))
  | [] => some []
  | (key, value) :: rest => do return (key, ← value.json?) :: (← jsonOfEntries? rest)

end

variable {key : String} {value : InputValue}

theorem json?_entry : (entry key value).json? = value.json?.map (Json.single key) := by
  rw [entry, json?, jsonOfEntries?]
  cases value.json? <;> rfl

theorem json?_entry_eq_some_iff {json : Json} :
    (entry key value).json? = some (.single key json) ↔ value.json? = some json := by
  rw [json?_entry, Option.map_eq_some_iff]
  simp [Json.single]

theorem jsonOfItems?_conditions_iff {members : List Condition} :
    jsonOfItems? (ofConditions members) = some (Condition.listToJson members) ↔
      ∀ member ∈ members, (ofCondition member).json? = some member.toJson := by
  induction members with
  | nil => exact iff_of_true rfl nofun
  | cons member rest ih =>
    rw [List.forall_mem_cons, ← ih]
    simp [ofConditions, jsonOfItems?, Condition.listToJson, Option.bind_eq_some_iff]

theorem jsonOfEntries?_fields_iff {entries : List (String × FieldCondition)} :
    jsonOfEntries? (ofEntries entries) = some (FieldCondition.entriesToJson entries) ↔
      ∀ entry ∈ entries, (ofFieldCondition entry.2).json? = some entry.2.toJson := by
  induction entries with
  | nil => exact iff_of_true rfl nofun
  | cons entry rest ih =>
    rw [List.forall_mem_cons, ← ih]
    simp [ofEntries, jsonOfEntries?, FieldCondition.entriesToJson, Option.bind_eq_some_iff]

theorem jsonOfEntries?_comparisons (comparisons : List Comparison) :
    jsonOfEntries? (comparisons.map ofComparison) = some (comparisons.map Comparison.member) := by
  induction comparisons with
  | nil => rfl
  | cons comparison rest ih =>
    rw [List.map_cons, ofComparison, jsonOfEntries?, ih]
    rfl

theorem names_jsonOfEntries? {entries : List (String × InputValue)}
    {members : List (String × Json)} (read : jsonOfEntries? entries = some members) :
    Named.names members = Named.names entries := by
  induction entries generalizing members with
  | nil =>
    cases read
    rfl
  | cons entry rest ih =>
    obtain ⟨_, _, read⟩ := Option.bind_eq_some_iff.mp read
    obtain ⟨others, later, read⟩ := Option.bind_eq_some_iff.mp read
    cases read
    exact congrArg (entry.1 :: ·) (ih later)

theorem json?_combination_iff {members : List Condition} :
    (entry key (.list (ofConditions members))).json? =
        some (.single key (.array (Condition.listToJson members))) ↔
      ∀ member ∈ members, (ofCondition member).json? = some member.toJson := by
  rw [json?_entry_eq_some_iff, json?, Option.map_eq_some_iff, ← jsonOfItems?_conditions_iff]
  simp

/-- Fields in order are written in that order, so no entry makes room for another. -/
theorem json?_fields_iff {entries : List (String × FieldCondition)}
    (ascending : Named.Ascending entries) :
    (object (ofEntries entries)).json? = some (.object (FieldCondition.entriesToJson entries)) ↔
      ∀ entry ∈ entries, (ofFieldCondition entry.2).json? = some entry.2.toJson := by
  have names : Named.names (ofEntries entries) = Named.names entries := by
    rw [ofEntries_eq_map, Named.names, List.map_map]
    rfl
  have ordered {members : List (String × Json)}
      (read : jsonOfEntries? (ofEntries entries) = some members) :
      Named.ofList members = members := by
    apply Named.Ascending.ofList_eq
    apply List.pairwise_map.mp
    rw [← Named.names, names_jsonOfEntries? read, names]
    exact ascending.names_pairwise
  rw [← jsonOfEntries?_fields_iff, json?, Option.map_eq_some_iff]
  constructor
  · rintro ⟨members, read, same⟩
    rw [ordered read] at same
    rw [read, Json.object.inj same]
  · intro read
    exact ⟨_, read, congrArg Json.object (ordered read)⟩

end InputValue

mutual

/-- No field has a list of comparisons, at any depth. -/
def Condition.ListFree : Condition → Prop
  | .and members => Condition.ListFreeMembers members
  | .or members => Condition.ListFreeMembers members
  | .not inner => inner.ListFree
  | .fields entries => FieldCondition.ListFreeEntries entries

def Condition.ListFreeMembers : List Condition → Prop
  | [] => True
  | condition :: rest => condition.ListFree ∧ Condition.ListFreeMembers rest

def FieldCondition.ListFree : FieldCondition → Prop
  | .comparison _ => True
  | .comparisons _ => False
  | .comparisonSet _ => True
  | .nested condition => condition.ListFree

def FieldCondition.ListFreeEntries : List (String × FieldCondition) → Prop
  | [] => True
  | (_, condition) :: rest => condition.ListFree ∧ FieldCondition.ListFreeEntries rest

end

namespace Condition

theorem listFreeMembers_iff {members : List Condition} :
    ListFreeMembers members ↔ ∀ member ∈ members, member.ListFree := by
  induction members with
  | nil => simp [ListFreeMembers]
  | cons member rest ih => simp [ListFreeMembers, ih]

theorem listFreeEntries_iff {entries : List (String × FieldCondition)} :
    FieldCondition.ListFreeEntries entries ↔ ∀ entry ∈ entries, entry.2.ListFree := by
  induction entries with
  | nil => simp [FieldCondition.ListFreeEntries]
  | cons entry rest ih => simp [FieldCondition.ListFreeEntries, ih]

/-- Only a list could name an operator twice. -/
theorem hereditary_distinctOperators : Hereditary
    (fun condition => condition.ListFree → condition.DistinctOperators)
    (fun condition => condition.ListFree → condition.DistinctOperators) where
  and _ each free := distinctOperatorsOfMembers_iff.mpr fun member inside =>
    each member inside (listFreeMembers_iff.mp free member inside)
  or _ each free := distinctOperatorsOfMembers_iff.mpr fun member inside =>
    each member inside (listFreeMembers_iff.mp free member inside)
  not _ each free := each free
  fields _ each free := distinctOperatorsOfEntries_iff.mpr fun entry inside =>
    each entry inside (listFreeEntries_iff.mp free entry inside)
  comparison _ _ := trivial
  comparisons _ free := free.elim
  comparisonSet _ _ := trivial
  nested _ each free := each free

theorem json?_members_iff {members : List Condition}
    (each : ∀ member ∈ members, member.Legible →
      ((InputValue.ofCondition member).json? = some member.toJson ↔ member.ListFree))
    (legible : LegibleMembers members) :
    (∀ member ∈ members, (InputValue.ofCondition member).json? = some member.toJson) ↔
      ListFreeMembers members := by
  rw [listFreeMembers_iff]
  exact forall₂_congr fun member inside =>
    each member inside (legibleMembers_iff.mp legible member inside)

/-- Lists are all that the document does not tell. -/
theorem hereditary_json? : Hereditary
    (fun condition => condition.Legible →
      ((InputValue.ofCondition condition).json? = some condition.toJson ↔ condition.ListFree))
    (fun condition => condition.Legible →
      ((InputValue.ofFieldCondition condition).json? = some condition.toJson ↔
        condition.ListFree)) where
  and _ each legible :=
    InputValue.json?_combination_iff.trans (json?_members_iff each legible)
  or _ each legible :=
    InputValue.json?_combination_iff.trans (json?_members_iff each legible)
  not inner each legible := InputValue.json?_entry_eq_some_iff.trans (each legible)
  fields entries each legible := by
    obtain ⟨ascending, _, legible⟩ := legible
    refine (InputValue.json?_fields_iff ascending).trans ?_
    rw [ListFree, listFreeEntries_iff]
    exact forall₂_congr fun entry inside =>
      each entry inside (legibleEntries_iff.mp legible entry inside)
  comparison _ _ := iff_of_true rfl trivial
  comparisons list _ := by
    refine iff_of_false (fun read => ?_) id
    obtain ⟨_, _, same⟩ := Option.map_eq_some_iff.mp read
    cases same
  comparisonSet set _ := by
    refine iff_of_true ?_ trivial
    rw [InputValue.ofFieldCondition, InputValue.json?, InputValue.jsonOfEntries?_comparisons]
    rfl
  nested condition each legible := each legible.1

end Condition

namespace OrderTerm

theorem json?_nestSegments (name first : String) (rest : List String) :
    (InputValue.nestSegments (.enumName name) first rest).json? =
      some (nestSegments (.string name) first rest) := by
  induction rest generalizing first with
  | nil => rfl
  | cons second rest ih => exact InputValue.json?_entry_eq_some_iff.mpr (ih second)

end OrderTerm

namespace InputValue

/-- In a document and in the variables a filter says the same, unless it lists comparisons; then no
entry has the key of another. Orderings always say the same. -/
theorem json?_inline :
    (∀ (value : Json) (condition : Condition), value.Canonical →
      Condition.ofJson value = .ok condition →
        ((ofCondition condition).json? = some condition.toJson ↔ condition.ListFree) ∧
          (condition.ListFree → (ofCondition condition).DistinctKeys)) ∧
      ∀ term : OrderTerm, (ofOrderTerm term).json? = some term.toJson := by
  refine ⟨fun value condition canonical read => ?_, fun term => ?_⟩
  · have legible := Condition.ofJson_legible canonical read
    refine ⟨Condition.hereditary_json?.condition condition legible, fun free => ?_⟩
    apply (Condition.hereditary_distinctKeys.condition condition legible).mpr
    exact Condition.hereditary_distinctOperators.condition condition free
  · exact OrderTerm.json?_nestSegments _ _ _

/-- A combinator beside a field, several comparisons in one object and an operand with keys. -/
def dueOrOwnedDocument : Json :=
  .object [
    ("_or", .array [.single "due" (.object [("_gte", .int 1), ("_lt", .int 9)]),
      .single "owner" (.object [("_id", .single "_eq" (.int 3)), ("team", .object [])])]),
    ("area", .single "_within" (.object [("box", .int 4), ("kind", .string "grid")]))]

def dueOrOwned : Condition :=
  .and [.or [.field "due" (.comparisonSet [⟨.gte, .int 1⟩, ⟨.lt, .int 9⟩]),
      .field "owner" (.nested (.fields [("_id", .comparison ⟨.eq, .int 3⟩),
        ("team", .nested .empty)]))],
    .field "area" (.comparison
      ⟨.custom "_within", .object [("box", .int 4), ("kind", .string "grid")]⟩)]

theorem dueOrOwned_inline :
    dueOrOwnedDocument.Canonical ∧ Condition.ofJson dueOrOwnedDocument = .ok dueOrOwned ∧
      (ofCondition dueOrOwned).json? = some dueOrOwned.toJson ∧
      (ofCondition dueOrOwned).DistinctKeys ∧
      (ofOrderTerm ⟨"owner..name", .descNullsLast⟩).json? =
        some (OrderTerm.toJson ⟨"owner..name", .descNullsLast⟩) := by
  have canonical : dueOrOwnedDocument.Canonical := by
    have same : dueOrOwnedDocument.canonical = dueOrOwnedDocument := by rfl
    exact same ▸ Json.canonical_canonical dueOrOwnedDocument
  have read : Condition.ofJson dueOrOwnedDocument = .ok dueOrOwned := by rfl
  have free : dueOrOwned.ListFree :=
    ⟨⟨⟨trivial, trivial⟩, ⟨⟨trivial, trivial, trivial⟩, trivial⟩, trivial⟩,
      ⟨trivial, trivial⟩, trivial⟩
  obtain ⟨conditions, terms⟩ := json?_inline
  obtain ⟨same, distinct⟩ := conditions _ _ canonical read
  exact ⟨canonical, read, same.mpr free, distinct free, terms _⟩

end InputValue

end GridQuery
