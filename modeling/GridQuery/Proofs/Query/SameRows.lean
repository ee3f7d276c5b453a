import GridQuery.Proofs.Condition.Truth
import GridQuery.Proofs.Query.TargetPaths

/-!
Equal filters select the same rows. Conditions that are equal up to order have the same truth
whatever comparisons hold, as long as equal operands are told alike, so an item that merging drops
is represented by one with the same rows.
-/

namespace GridQuery

/-- Whether comparisons with equal operands hold of the same rows. -/
def Truth.Respects (truth : Truth) : Prop :=
  ∀ path key operand other, operand.equal other = true →
    (truth path key operand ↔ truth path key other)

section

variable {truth : Truth}

theorem Comparison.Same.holds_iff (respects : truth.Respects) {left right : Comparison}
    (same : left.Same right) (path : List String) :
    left.Holds truth path ↔ right.Holds truth path := by
  obtain ⟨key, operands⟩ := same
  rw [Holds, Holds, ← key]
  exact respects path left.key left.operand right.operand ((Json.equal_iff _ _).mpr operands)

theorem FieldCondition.holds_of_several {condition : FieldCondition} {list : List Comparison}
    (several : condition.several? = some list) (path : List String) :
    condition.Holds truth path ↔ ∀ comparison ∈ list, comparison.Holds truth path := by
  cases condition <;> cases several <;> rfl

namespace Condition

theorem several_holds_iff (respects : truth.Respects) {condition : FieldCondition}
    {list : List Comparison} (several : condition.several? = some list) :
    ∀ other, FieldCondition.Same condition other →
      ∀ path, condition.Holds truth path ↔ other.Holds truth path := by
  intro other same path
  obtain ⟨others, otherSeveral, pairing⟩ := (same_several_iff several).mp same
  rw [FieldCondition.holds_of_several several, FieldCondition.holds_of_several otherSeveral]
  exact pairing.forall_iff fun _ _ _ near => near.holds_iff respects path

theorem entriesHold_iff {entries others : List (String × FieldCondition)}
    (alike : ∀ entry ∈ entries, ∀ other, FieldCondition.Same entry.2 other →
      ∀ path, entry.2.Holds truth path ↔ other.Holds truth path)
    (names : Named.names entries = Named.names others)
    (pairs : List.Forall₂ FieldCondition.Same (entries.map Prod.snd) (others.map Prod.snd))
    (path : List String) :
    FieldCondition.EntriesHold truth path entries ↔
      FieldCondition.EntriesHold truth path others := by
  induction entries generalizing others with
  | nil =>
    obtain rfl : others = [] := by simpa [Named.names] using names.symm
    rfl
  | cons entry rest ih =>
    cases others with
    | nil => cases names
    | cons other others =>
      obtain ⟨name, condition⟩ := entry
      obtain ⟨otherName, kept⟩ := other
      obtain ⟨first, later⟩ := List.forall_mem_cons.mp alike
      simp only [Named.names, List.map_cons, List.cons.injEq] at names
      obtain ⟨rfl, names⟩ := names
      obtain ⟨here, there⟩ := List.forall₂_cons.mp pairs
      rw [FieldCondition.EntriesHold, FieldCondition.EntriesHold, first kept here,
        ih later names there]

/-- Conditions that are equal up to order have the same truth. -/
theorem hereditary_holds_iff (respects : truth.Respects) :
    Hereditary
      (fun condition => ∀ other, Same condition other →
        ∀ path, condition.Holds truth path ↔ other.Holds truth path)
      (fun condition => ∀ other, FieldCondition.Same condition other →
        ∀ path, condition.Holds truth path ↔ other.Holds truth path) where
  and members alike := by
    intro other same path
    obtain ⟨others, rfl, pairing⟩ := same_and_iff.mp same
    rw [holds_and, holds_and]
    exact pairing.forall_iff fun member inside other near => alike member inside other near path
  or members alike := by
    intro other same path
    obtain ⟨others, rfl, pairing⟩ := same_or_iff.mp same
    rw [holds_or, holds_or]
    exact pairing.exists_iff fun member inside other near => alike member inside other near path
  not inner alike := by
    intro other same path
    obtain ⟨second, rfl, inside⟩ := same_not_iff.mp same
    rw [holds_not, holds_not, alike second inside path]
  fields entries alike := by
    intro other same path
    obtain ⟨others, rfl, names, pairs⟩ := same_fields_iff.mp same
    exact entriesHold_iff alike names pairs path
  comparison comparison := by
    intro other same path
    obtain ⟨second, rfl, here⟩ := same_comparison_iff.mp same
    exact here.holds_iff respects path
  comparisons list := several_holds_iff respects rfl
  comparisonSet set := several_holds_iff respects rfl
  nested condition alike := by
    intro other same path
    obtain ⟨second, rfl, inside⟩ := same_nested_iff.mp same
    exact alike second inside path

/-- Comparing equal, conditions on any object hold of the same rows. -/
theorem holds_iff_of_same {left right : Condition} (ordered : left.Ordered)
    (ordered' : right.Ordered) (same : left.same right = true) (respects : truth.Respects)
    (path : List String) : left.Holds truth path ↔ right.Holds truth path :=
  (hereditary_holds_iff respects).condition left right
    ((hereditary_decides.condition left ordered right ordered').mp same) path

end Condition

end

namespace Selection

/-- Both filters select the same rows, whatever comparisons hold; no filter selects all rows. -/
def SelectAlike (left right : Option Condition) : Prop :=
  ∀ truth : Truth, truth.Respects → ∀ path,
    (∀ condition ∈ left, condition.Holds truth path) ↔
      ∀ condition ∈ right, condition.Holds truth path

/-- Both targets are one field under one name and path, with the same rows. -/
structure Target.Agrees (target other : Target) : Prop where
  field : target.field = other.field
  name : target.name = other.name
  path : target.path = other.path
  rows : SelectAlike target.filter other.filter

variable {target other : Target} {path path' : List Target} {items : List Selection}

theorem Target.agrees_of_same (ordered : target.Ordered) (ordered' : other.Ordered)
    (same : target.same other = true) : target.Agrees other := by
  obtain ⟨field, name, path, filter⟩ := target
  obtain ⟨otherField, otherName, otherPath, otherFilter⟩ := other
  simp only [Target.same, Bool.and_eq_true, decide_eq_true_eq] at same
  obtain ⟨⟨⟨rfl, rfl⟩, rfl⟩, filters⟩ := same
  refine ⟨rfl, rfl, rfl, fun truth respects place => ?_⟩
  cases filter with
  | none =>
    cases otherFilter with
    | none => exact Iff.rfl
    | some second => cases filters
  | some first =>
    cases otherFilter with
    | none => cases filters
    | some second =>
      have alike := Condition.holds_iff_of_same (ordered first rfl) (ordered' second rfl) filters
        respects place
      simpa only [Option.mem_some_iff, forall_eq'] using alike

theorem forall₂_agrees (ordered : ∀ target ∈ path, target.Ordered)
    (ordered' : ∀ target ∈ path', target.Ordered) (same : samePath path path' = true) :
    List.Forall₂ Target.Agrees path path' := by
  induction path generalizing path' with
  | nil =>
    cases path' with
    | nil => exact .nil
    | cons other rest => cases same
  | cons target rest ih =>
    cases path' with
    | nil => cases same
    | cons other others =>
      obtain ⟨first, later⟩ := List.forall_mem_cons.mp ordered
      obtain ⟨first', later'⟩ := List.forall_mem_cons.mp ordered'
      obtain ⟨here, there⟩ := Bool.and_eq_true_iff.mp same
      exact .cons (Target.agrees_of_same first first' here) (ih later later' there)

theorem ordered_merge (ordered : OrderedFilters items) : OrderedFilters (merge items) := by
  intro visit member target inside
  obtain ⟨source, found, inside⟩ := exists_source_of_mem_walk_merge visit member target inside
  exact ordered source found target inside

/-- Conditions that compare equal hold of the same rows. So of every item that is merged there is
one in the result, on a path of the same fields, each with the rows that it had. -/
theorem merge_keeps_rows :
    (∀ left right : Condition, left.Ordered → right.Ordered → left.same right = true →
      ∀ truth : Truth, truth.Respects → ∀ path,
        left.Holds truth path ↔ right.Holds truth path) ∧
    ∀ items, OrderedFilters items → ∀ source ∈ walk items, ∃ visit ∈ walk (merge items),
      List.Forall₂ Target.Agrees visit.path source.path := by
  refine ⟨fun _ _ ordered ordered' same _ => Condition.holds_iff_of_same ordered ordered' same, ?_⟩
  intro items ordered source member
  obtain ⟨visit, visited, same⟩ := merge_loses_nothing items ordered source member
  exact ⟨visit, visited,
    forall₂_agrees (ordered_merge ordered visit visited) (ordered source member) same⟩

theorem zero_finite : 0 < infinityMagnitude := by
  decide

/-- Scores that are not between zero and five, with the bounds in a list. -/
def listedBounds : Condition :=
  .not (.field "score"
    (.comparisons [⟨.gte, .number (.double ⟨false, 0, zero_finite⟩)⟩, ⟨.lt, .int 5⟩]))

/-- The same with the bounds in a set and a negative zero. -/
def setBounds : Condition :=
  .not (.field "score"
    (.comparisonSet [⟨.lt, .int 5⟩, ⟨.gte, .number (.double ⟨true, 0, zero_finite⟩)⟩]))

def scoredTasks (filter : Condition) (field : String) : Selection :=
  ⟨"tasks", none, none, some filter, none, none, none, none, [plain field]⟩

theorem scoredTasks_keep_rows :
    (listedBounds.Ordered ∧ setBounds.Ordered ∧ listedBounds.same setBounds = true ∧
      ∀ truth : Truth, truth.Respects → ∀ path,
        listedBounds.Holds truth path ↔ setBounds.Holds truth path) ∧
    OrderedFilters [scoredTasks listedBounds "title", scoredTasks setBounds "due"] ∧
    ∀ source ∈ walk [scoredTasks listedBounds "title", scoredTasks setBounds "due"],
      ∃ visit ∈ walk [{ scoredTasks listedBounds "title" with
          selections := [plain "title", plain "due"] }],
        List.Forall₂ Target.Agrees visit.path source.path := by
  have read : Read.condition listedBounds.toJson = .ok listedBounds := rfl
  have ordered : listedBounds.Ordered := Condition.read_ordered read
  have ordered' : setBounds.Ordered := ⟨List.pairwise_singleton .., trivial, trivial⟩
  have filters :
      OrderedFilters [scoredTasks listedBounds "title", scoredTasks setBounds "due"] := by
    simp [OrderedFilters, scoredTasks, plain, walk, visits, Visit.above, Target.Ordered, ordered,
      ordered']
  obtain ⟨holds, keeps⟩ := merge_keeps_rows
  exact ⟨⟨ordered, ordered', rfl, holds _ _ ordered ordered' rfl⟩, filters, keeps _ filters⟩

end Selection

end GridQuery
