import GridQuery.Proofs.Condition.Legible

/-!
The entries of conditions are in ascending order of their names, each name once. Every condition
that is read from a document has them so.
-/

namespace GridQuery

mutual

/-- Whether the entries of all parts are in ascending order of their names, each name once. -/
def Condition.Ordered : Condition → Prop
  | .and members => Condition.OrderedMembers members
  | .or members => Condition.OrderedMembers members
  | .not inner => inner.Ordered
  | .fields entries => Named.Ascending entries ∧ FieldCondition.OrderedEntries entries

def Condition.OrderedMembers : List Condition → Prop
  | [] => True
  | condition :: rest => condition.Ordered ∧ Condition.OrderedMembers rest

def FieldCondition.Ordered : FieldCondition → Prop
  | .nested condition => condition.Ordered
  | _ => True

def FieldCondition.OrderedEntries : List (String × FieldCondition) → Prop
  | [] => True
  | (_, condition) :: rest => condition.Ordered ∧ FieldCondition.OrderedEntries rest

end

namespace Condition

variable {members : List Condition}

theorem orderedMembers_iff : OrderedMembers members ↔ ∀ member ∈ members, member.Ordered := by
  induction members with
  | nil => simp [OrderedMembers]
  | cons member rest ih => simp [OrderedMembers, ih]

theorem orderedEntries_iff {entries : List (String × FieldCondition)} :
    FieldCondition.OrderedEntries entries ↔ ∀ entry ∈ entries, entry.2.Ordered := by
  induction entries with
  | nil => simp [FieldCondition.OrderedEntries]
  | cons entry rest ih => simp [FieldCondition.OrderedEntries, ih]

/-- The entries of a legible condition are in order. -/
theorem hereditary_ordered : Hereditary (fun condition => condition.Legible → condition.Ordered)
    (fun condition => condition.Legible → condition.Ordered) where
  and members ordered legible := orderedMembers_iff.mpr fun member inside =>
    ordered member inside (legibleMembers_iff.mp legible member inside)
  or members ordered legible := orderedMembers_iff.mpr fun member inside =>
    ordered member inside (legibleMembers_iff.mp legible member inside)
  not inner ordered legible := by
    rw [Legible] at legible
    rw [Ordered]
    exact ordered legible
  fields entries ordered legible := by
    obtain ⟨ascending, _, legible⟩ := legible
    exact ⟨ascending, orderedEntries_iff.mpr fun entry inside =>
      ordered entry inside (legibleEntries_iff.mp legible entry inside)⟩
  comparison _ _ := trivial
  comparisons _ _ := trivial
  comparisonSet _ _ := trivial
  nested condition ordered legible := ordered legible.1

/-- A condition read from a value has its entries in the order of the members. -/
theorem ofJson_ordered {value : Json} {condition : Condition} (canonical : value.Canonical)
    (read : ofJson value = .ok condition) : condition.Ordered :=
  hereditary_ordered.condition condition (ofJson_legible canonical read)

/-- Whatever document a condition is read from, its entries are in order. -/
theorem read_ordered {document : Json} {condition : Condition}
    (read : Read.condition document = .ok condition) : condition.Ordered :=
  ofJson_ordered (Json.canonical_canonical document) (mapError_eq_ok.mp read)

end Condition

end GridQuery
