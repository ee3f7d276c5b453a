import GridQuery.Proofs.Condition.Legible
import GridQuery.Proofs.Json.Reading
import GridQuery.Query.Request

/-!
The operands of a condition are parts of the document that it was read from, so they have what all
parts of the document have: they are values in canonical form, and so is what the condition is
written as. Reading is therefore steady, also where the keys inside operands must be names.
-/

namespace GridQuery

/-- What passes from a JSON value to its items and members. -/
structure Json.Inherited (P : Json → Prop) : Prop where
  item : ∀ items, P (.array items) → ∀ item ∈ items, P item
  member : ∀ members, P (.object members) → ∀ member ∈ members, P member.2

theorem Json.inherited_canonical : Inherited Canonical where
  item _ canonical := canonicalItems_iff.mp canonical
  member _ canonical := canonicalMembers_iff.mp canonical.2

theorem Json.canonical_single {name : String} {value : Json} (canonical : value.Canonical) :
    (single name value).Canonical :=
  ⟨List.pairwise_singleton .., canonical, trivial⟩

namespace Condition

theorem mem_operandsOfList {members : List Condition} {operand : Json} :
    operand ∈ operandsOfList members ↔ ∃ member ∈ members, operand ∈ member.operands := by
  induction members with
  | nil => simp [operandsOfList]
  | cons member rest ih => simp [operandsOfList, ih]

theorem mem_operandsOfEntries {entries : List (String × FieldCondition)} {operand : Json} :
    operand ∈ FieldCondition.operandsOfEntries entries ↔
      ∃ entry ∈ entries, operand ∈ entry.2.operands := by
  induction entries with
  | nil => simp [FieldCondition.operandsOfEntries]
  | cons entry rest ih => simp [FieldCondition.operandsOfEntries, ih]

section

variable {P : Json → Prop}

theorem operands_of_comparisonsOfItems (inherited : Json.Inherited P) {field : String}
    {items : List Json} {list : List Comparison} (holds : ∀ item ∈ items, P item)
    (read : comparisonsOfItems field items = .ok list) :
    ∀ comparison ∈ list, P comparison.operand := by
  induction items generalizing list with
  | nil =>
    cases read
    simp
  | cons item rest ih =>
    obtain ⟨here, later⟩ := List.forall_mem_cons.mp holds
    cases item with
    | object members =>
      rw [comparisonsOfItems] at read
      split at read
      next =>
        obtain ⟨others, beyond, rfl⟩ := map_eq_ok.mp read
        exact List.forall_mem_append.mpr
          ⟨List.forall_mem_map.mpr (inherited.member members here), ih later beyond⟩
      next => cases read
    | null => cases read
    | bool value => cases read
    | number value => cases read
    | string text => cases read
    | array items => cases read

mutual

theorem operands_of_ofJson (inherited : Json.Inherited P) :
    ∀ {value : Json} {condition : Condition}, P value →
      ofJson value = .ok condition → ∀ operand ∈ condition.operands, P operand
  | .object members, _, holds, read =>
    operands_of_ofObject inherited (inherited.member members holds) read
  | .null, _, _, read => by cases read
  | .bool _, _, _, read => by cases read
  | .number _, _, _, read => by cases read
  | .string _, _, _, read => by cases read
  | .array _, _, _, read => by cases read

theorem operands_of_ofObject (inherited : Json.Inherited P) :
    ∀ {members : List (String × Json)} {condition : Condition},
      (∀ member ∈ members, P member.2) → ofObject members = .ok condition →
        ∀ operand ∈ condition.operands, P operand
  | [], _, _, read => by
    cases read
    simp [empty, operands, FieldCondition.operandsOfEntries]
  | [member], _, holds, read =>
    operands_of_ofMember inherited (holds member (List.mem_singleton_self _)) read
  | member :: second :: rest, _, holds, read => by
    rcases ofObject_eq_ok read with ⟨members, listed, rfl⟩ | ⟨_, entries, listed, rfl⟩
    · exact operands_of_ofMembers inherited holds listed
    · exact operands_of_fieldOfMembers inherited holds listed

theorem operands_of_ofMember (inherited : Json.Inherited P) :
    ∀ {member : String × Json} {condition : Condition},
      P member.2 → ofMember member = .ok condition → ∀ operand ∈ condition.operands, P operand
  | (key, value), _, holds, read => by
    rcases ofMember_eq_ok read with
      ⟨members, listed, rfl | rfl⟩ | ⟨inner, inside, rfl⟩ | ⟨_, inner, inside, rfl⟩
    · exact operands_of_ofList inherited holds listed
    · exact operands_of_ofList inherited holds listed
    · show ∀ operand ∈ inner.operands, P operand
      exact operands_of_ofJson inherited holds inside
    · intro operand member
      obtain ⟨entry, alone, member⟩ := mem_operandsOfEntries.mp member
      cases List.mem_singleton.mp alone
      exact operands_of_fieldOfJson inherited holds inside operand member

theorem operands_of_ofMembers (inherited : Json.Inherited P) :
    ∀ {members : List (String × Json)} {conditions : List Condition},
      (∀ member ∈ members, P member.2) → ofMembers members = .ok conditions →
        ∀ operand ∈ operandsOfList conditions, P operand
  | [], _, _, read => by
    cases read
    simp [operandsOfList]
  | member :: rest, _, holds, read => by
    obtain ⟨first, later⟩ := List.forall_mem_cons.mp holds
    rw [ofMembers] at read
    obtain ⟨condition, here, read⟩ := bind_eq_ok.mp read
    obtain ⟨others, there, read⟩ := bind_eq_ok.mp read
    cases read
    exact List.forall_mem_append.mpr
      ⟨operands_of_ofMember inherited first here, operands_of_ofMembers inherited later there⟩

theorem operands_of_ofList (inherited : Json.Inherited P) :
    ∀ {key : String} {value : Json} {conditions : List Condition},
      P value → ofList key value = .ok conditions →
        ∀ operand ∈ operandsOfList conditions, P operand
  | _, .array items, _, holds, read =>
    operands_of_ofItems inherited (inherited.item items holds) read
  | _, .null, _, _, read => by cases read
  | _, .bool _, _, _, read => by cases read
  | _, .number _, _, _, read => by cases read
  | _, .string _, _, _, read => by cases read
  | _, .object _, _, _, read => by cases read

theorem operands_of_ofItems (inherited : Json.Inherited P) :
    ∀ {items : List Json} {conditions : List Condition},
      (∀ item ∈ items, P item) → ofItems items = .ok conditions →
        ∀ operand ∈ operandsOfList conditions, P operand
  | [], _, _, read => by
    cases read
    simp [operandsOfList]
  | item :: rest, _, holds, read => by
    obtain ⟨first, later⟩ := List.forall_mem_cons.mp holds
    rw [ofItems] at read
    obtain ⟨condition, here, read⟩ := bind_eq_ok.mp read
    obtain ⟨others, there, read⟩ := bind_eq_ok.mp read
    cases read
    exact List.forall_mem_append.mpr
      ⟨operands_of_ofJson inherited first here, operands_of_ofItems inherited later there⟩

theorem operands_of_fieldOfJson (inherited : Json.Inherited P) :
    ∀ {field : String} {value : Json} {condition : FieldCondition},
      P value → FieldCondition.ofJson field value = .ok condition →
        ∀ operand ∈ condition.operands, P operand
  | _, .array items, _, holds, read => by
    obtain ⟨list, listed, rfl⟩ := map_eq_ok.mp read
    exact List.forall_mem_map.mpr
      (operands_of_comparisonsOfItems inherited (inherited.item items holds) listed)
  | _, .object members, _, holds, read => by
    have holds := inherited.member members holds
    unfold FieldCondition.ofJson at read
    split at read
    next =>
      split at read
      next member =>
        cases read
        exact List.forall_mem_singleton.mpr (holds _ (List.mem_singleton_self _))
      next =>
        cases read
        exact List.forall_mem_map.mpr (List.forall_mem_map.mpr holds)
    next =>
      obtain ⟨inner, inside, rfl⟩ := map_eq_ok.mp read
      exact operands_of_ofObject inherited holds inside
  | _, .null, _, _, read => by cases read
  | _, .bool _, _, _, read => by cases read
  | _, .number _, _, _, read => by cases read
  | _, .string _, _, _, read => by cases read

theorem operands_of_fieldOfMember (inherited : Json.Inherited P) :
    ∀ {member : String × Json} {entry : String × FieldCondition},
      P member.2 → FieldCondition.ofMember member = .ok entry →
        ∀ operand ∈ entry.2.operands, P operand
  | (name, value), _, holds, read => by
    obtain ⟨condition, inside, rfl⟩ := map_eq_ok.mp read
    exact operands_of_fieldOfJson inherited holds inside

theorem operands_of_fieldOfMembers (inherited : Json.Inherited P) :
    ∀ {members : List (String × Json)}
      {entries : List (String × FieldCondition)}, (∀ member ∈ members, P member.2) →
        FieldCondition.ofMembers members = .ok entries →
          ∀ operand ∈ FieldCondition.operandsOfEntries entries, P operand
  | [], _, _, read => by
    cases read
    simp [FieldCondition.operandsOfEntries]
  | member :: rest, _, holds, read => by
    obtain ⟨first, later⟩ := List.forall_mem_cons.mp holds
    rw [FieldCondition.ofMembers] at read
    obtain ⟨entry, here, read⟩ := bind_eq_ok.mp read
    obtain ⟨others, there, read⟩ := bind_eq_ok.mp read
    cases read
    exact List.forall_mem_append.mpr
      ⟨operands_of_fieldOfMember inherited first here,
        operands_of_fieldOfMembers inherited later there⟩

end

end

theorem canonical_listToJson {members : List Condition}
    (each : ∀ member ∈ members, member.toJson.Canonical) :
    Json.CanonicalItems (listToJson members) := by
  induction members with
  | nil => trivial
  | cons member rest ih =>
    obtain ⟨here, later⟩ := List.forall_mem_cons.mp each
    exact ⟨here, ih later⟩

theorem canonical_entriesToJson {entries : List (String × FieldCondition)}
    (each : ∀ entry ∈ entries, entry.2.toJson.Canonical) :
    Json.CanonicalMembers (FieldCondition.entriesToJson entries) := by
  induction entries with
  | nil => trivial
  | cons entry rest ih =>
    obtain ⟨here, later⟩ := List.forall_mem_cons.mp each
    exact ⟨here, ih later⟩

theorem ascending_entriesToJson {entries : List (String × FieldCondition)}
    (ascending : Named.Ascending entries) :
    Named.Ascending (FieldCondition.entriesToJson entries) := by
  apply List.pairwise_map.mp
  rw [← Named.names, names_entriesToJson]
  exact ascending.names_pairwise

/-- What a legible condition is written as is in canonical form, if its operands are. -/
theorem hereditary_canonical : Hereditary
    (fun condition => condition.Legible → (∀ operand ∈ condition.operands, operand.Canonical) →
      condition.toJson.Canonical)
    (fun condition => condition.Legible → (∀ operand ∈ condition.operands, operand.Canonical) →
      condition.toJson.Canonical) where
  and members each legible operands :=
    Json.canonical_single (canonical_listToJson fun member inside =>
      each member inside (legibleMembers_iff.mp legible member inside) fun operand part =>
        operands operand (mem_operandsOfList.mpr ⟨member, inside, part⟩))
  or members each legible operands :=
    Json.canonical_single (canonical_listToJson fun member inside =>
      each member inside (legibleMembers_iff.mp legible member inside) fun operand part =>
        operands operand (mem_operandsOfList.mpr ⟨member, inside, part⟩))
  not inner each legible operands := Json.canonical_single (each legible operands)
  fields entries each legible operands := by
    obtain ⟨ascending, _, legible⟩ := legible
    exact ⟨ascending_entriesToJson ascending, canonical_entriesToJson fun entry inside =>
      each entry inside (legibleEntries_iff.mp legible entry inside) fun operand part =>
        operands operand (mem_operandsOfEntries.mpr ⟨entry, inside, part⟩)⟩
  comparison comparison legible operands :=
    Json.canonical_single (operands _ (List.mem_singleton_self _))
  comparisons list legible operands := by
    refine Json.canonicalItems_iff.mpr (List.forall_mem_map.mpr ?_)
    intro comparison inside
    exact Json.canonical_single (operands _ (List.mem_map_of_mem inside))
  comparisonSet set legible operands := by
    obtain ⟨_, ascending, _⟩ := legible
    rw [FieldCondition.toJson, ascending.ofList_eq]
    refine ⟨ascending, Json.canonicalMembers_iff.mpr (List.forall_mem_map.mpr ?_)⟩
    intro comparison inside
    exact operands _ (List.mem_map_of_mem inside)
  nested condition each legible operands := each legible.1 operands

/-- Whatever document a condition is read from, it is legible and its operands are values. -/
theorem legible_of_read {document : Json} {condition : Condition}
    (read : Read.condition document = .ok condition) :
    condition.Legible ∧ ∀ operand ∈ condition.operands, operand.Canonical := by
  have canonical := Json.canonical_canonical document
  have made := mapError_eq_ok.mp read
  exact ⟨ofJson_legible canonical made,
    operands_of_ofJson Json.inherited_canonical canonical made⟩

theorem read_toJson {condition : Condition} (legible : condition.Legible)
    (operands : ∀ operand ∈ condition.operands, operand.Canonical) :
    Read.condition condition.toJson = .ok condition := by
  have canonical := hereditary_canonical.condition condition legible operands
  rw [Read.condition, mapError_eq_ok, canonical.canonical_eq]
  exact hereditary_rereads.condition condition legible

end Condition

namespace Read

theorem steady_condition : Steady condition Condition.toJson := by
  intro document condition read
  obtain ⟨legible, operands⟩ := Condition.legible_of_read read
  exact Condition.read_toJson legible operands

/-- A condition for a document is read exactly if all keys inside its operands are names. -/
theorem inlineCondition_eq_ok {document : Json} {condition : Condition} :
    inlineCondition document = .ok condition ↔ Read.condition document = .ok condition ∧
      ∀ operand ∈ condition.operands, ∀ key ∈ operand.keys, Text.isName key = true := by
  rw [inlineCondition, bind_eq_ok]
  constructor
  · rintro ⟨found, read, checked⟩
    split at checked
    next => cases checked
    next none =>
      cases checked
      refine ⟨read, fun operand inside key member => ?_⟩
      simpa using List.find?_eq_none.mp none key (List.mem_flatMap.mpr ⟨operand, inside, member⟩)
  · rintro ⟨read, names⟩
    refine ⟨condition, read, ?_⟩
    have none : (condition.operands.flatMap Json.keys).find? (fun key => !Text.isName key) =
        none := by
      rw [List.find?_eq_none]
      intro key member
      obtain ⟨operand, inside, member⟩ := List.mem_flatMap.mp member
      simp [names operand inside key member]
    rw [none]
    rfl

theorem steady_inlineCondition : Steady inlineCondition Condition.toJson := by
  intro document condition read
  obtain ⟨read, names⟩ := inlineCondition_eq_ok.mp read
  exact inlineCondition_eq_ok.mpr ⟨steady_condition read, names⟩

end Read

end GridQuery
