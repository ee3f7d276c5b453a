import GridQuery.Proofs.Query.BareKeys
import Mathlib.Data.List.Nodup

/-!
Keys of the objects that the filter of a hop is written as. Fields and the comparisons of an object
have keys of their own, but a list of comparisons may name one operator several times, and then so
does the object that it is written as.
-/

namespace GridQuery

namespace InputValue

mutual

/-- Whether no object outside scalars has a key twice. -/
def DistinctKeys : InputValue → Prop
  | .reference _ => True
  | .enumName _ => True
  | .scalar _ => True
  | .list items => DistinctKeysOfItems items
  | .object entries => (Named.names entries).Nodup ∧ DistinctKeysOfEntries entries

def DistinctKeysOfItems : List InputValue → Prop
  | [] => True
  | item :: rest => item.DistinctKeys ∧ DistinctKeysOfItems rest

def DistinctKeysOfEntries : List (String × InputValue) → Prop
  | [] => True
  | (_, value) :: rest => value.DistinctKeys ∧ DistinctKeysOfEntries rest

end

mutual

/-- What is taken in where each object keeps one value for each key, the last one. -/
def oncePerKey : InputValue → InputValue
  | .reference name => .reference name
  | .enumName name => .enumName name
  | .scalar value => .scalar value
  | .list items => .list (oncePerKeyOfItems items)
  | .object entries => .object (oncePerKeyOfEntries entries)

def oncePerKeyOfItems : List InputValue → List InputValue
  | [] => []
  | item :: rest => item.oncePerKey :: oncePerKeyOfItems rest

def oncePerKeyOfEntries : List (String × InputValue) → List (String × InputValue)
  | [] => []
  | (key, value) :: rest =>
    if key ∈ Named.names rest then oncePerKeyOfEntries rest
    else (key, value.oncePerKey) :: oncePerKeyOfEntries rest

end

theorem length_oncePerKeyOfEntries (entries : List (String × InputValue)) :
    (oncePerKeyOfEntries entries).length ≤ entries.length := by
  induction entries with
  | nil => exact Nat.le_refl _
  | cons entry rest ih =>
    rw [oncePerKeyOfEntries]
    split
    · exact Nat.le_succ_of_le ih
    · exact Nat.succ_le_succ ih

mutual

/-- Nothing gets lost exactly if no object has a key twice. -/
theorem oncePerKey_eq_self_iff : ∀ {value : InputValue},
    value.oncePerKey = value ↔ value.DistinctKeys
  | .reference _ => iff_of_true rfl trivial
  | .enumName _ => iff_of_true rfl trivial
  | .scalar _ => iff_of_true rfl trivial
  | .list items => by
    rw [oncePerKey, DistinctKeys, list.injEq]
    exact oncePerKeyOfItems_eq_self_iff
  | .object entries => by
    rw [oncePerKey, DistinctKeys, object.injEq]
    exact oncePerKeyOfEntries_eq_self_iff

theorem oncePerKeyOfItems_eq_self_iff : ∀ {items : List InputValue},
    oncePerKeyOfItems items = items ↔ DistinctKeysOfItems items
  | [] => iff_of_true rfl trivial
  | item :: rest => by
    rw [oncePerKeyOfItems, DistinctKeysOfItems, List.cons.injEq, oncePerKey_eq_self_iff,
      oncePerKeyOfItems_eq_self_iff]

theorem oncePerKeyOfEntries_eq_self_iff : ∀ {entries : List (String × InputValue)},
    oncePerKeyOfEntries entries = entries ↔
      (Named.names entries).Nodup ∧ DistinctKeysOfEntries entries
  | [] => iff_of_true rfl ⟨List.nodup_nil, trivial⟩
  | (key, value) :: rest => by
    have names : Named.names ((key, value) :: rest) = key :: Named.names rest := rfl
    rw [oncePerKeyOfEntries, DistinctKeysOfEntries, names, List.nodup_cons]
    split
    next repeated =>
      refine iff_of_false (fun same => ?_) fun distinct => distinct.1.1 repeated
      have shorter := length_oncePerKeyOfEntries rest
      rw [same] at shorter
      exact Nat.not_succ_le_self _ shorter
    next fresh =>
      rw [List.cons.injEq, Prod.mk.injEq, oncePerKey_eq_self_iff, oncePerKeyOfEntries_eq_self_iff]
      exact ⟨fun ⟨⟨_, here⟩, distinct, later⟩ => ⟨⟨fresh, distinct⟩, here, later⟩,
        fun ⟨⟨_, distinct⟩, here, later⟩ => ⟨⟨rfl, here⟩, distinct, later⟩⟩

end

theorem distinctKeysOfItems_iff {items : List InputValue} :
    DistinctKeysOfItems items ↔ ∀ item ∈ items, item.DistinctKeys := by
  induction items with
  | nil => simp [DistinctKeysOfItems]
  | cons item rest ih => simp [DistinctKeysOfItems, ih]

theorem distinctKeysOfEntries_iff {entries : List (String × InputValue)} :
    DistinctKeysOfEntries entries ↔ ∀ entry ∈ entries, entry.2.DistinctKeys := by
  induction entries with
  | nil => simp [DistinctKeysOfEntries]
  | cons entry rest ih => simp [DistinctKeysOfEntries, ih]

theorem distinctKeys_entry {key : String} {value : InputValue} :
    (entry key value).DistinctKeys ↔ value.DistinctKeys := by
  simp [entry, DistinctKeys, DistinctKeysOfEntries, Named.names]

/-- An object of comparisons has only the keys of its operators. -/
theorem distinctKeys_comparisons {comparisons : List Comparison} :
    (object (comparisons.map ofComparison)).DistinctKeys ↔
      (comparisons.map fun comparison => comparison.key.text).Nodup := by
  rw [DistinctKeys, distinctKeysOfEntries_iff, Named.names, List.map_map]
  exact and_iff_left (List.forall_mem_map.mpr fun _ _ => trivial)

end InputValue

mutual

/-- Whether no list of comparisons has an operator twice. -/
def Condition.DistinctOperators : Condition → Prop
  | .and members => Condition.DistinctOperatorsOfMembers members
  | .or members => Condition.DistinctOperatorsOfMembers members
  | .not inner => inner.DistinctOperators
  | .fields entries => FieldCondition.DistinctOperatorsOfEntries entries

def Condition.DistinctOperatorsOfMembers : List Condition → Prop
  | [] => True
  | condition :: rest =>
    condition.DistinctOperators ∧ Condition.DistinctOperatorsOfMembers rest

def FieldCondition.DistinctOperators : FieldCondition → Prop
  | .comparison _ => True
  | .comparisons list => (list.map Comparison.key).Nodup
  | .comparisonSet _ => True
  | .nested condition => condition.DistinctOperators

def FieldCondition.DistinctOperatorsOfEntries : List (String × FieldCondition) → Prop
  | [] => True
  | (_, condition) :: rest =>
    condition.DistinctOperators ∧ FieldCondition.DistinctOperatorsOfEntries rest

end

namespace Condition

theorem distinctOperatorsOfMembers_iff {members : List Condition} :
    DistinctOperatorsOfMembers members ↔ ∀ member ∈ members, member.DistinctOperators := by
  induction members with
  | nil => simp [DistinctOperatorsOfMembers]
  | cons member rest ih => simp [DistinctOperatorsOfMembers, ih]

theorem distinctOperatorsOfEntries_iff {entries : List (String × FieldCondition)} :
    FieldCondition.DistinctOperatorsOfEntries entries ↔
      ∀ entry ∈ entries, entry.2.DistinctOperators := by
  induction entries with
  | nil => simp [FieldCondition.DistinctOperatorsOfEntries]
  | cons entry rest ih => simp [FieldCondition.DistinctOperatorsOfEntries, ih]

/-- Legible operators are told by their keys. -/
theorem nodup_keys_iff {list : List Comparison}
    (legible : ∀ comparison ∈ list, comparison.Legible) :
    (list.map fun comparison => comparison.key.text).Nodup ↔ (list.map Comparison.key).Nodup := by
  have told : list.map Comparison.key =
      (list.map fun comparison => comparison.key.text).map OperatorKey.ofText := by
    rw [List.map_map]
    exact List.map_congr_left fun comparison inside => (legible comparison inside).2.symm
  have written : (list.map fun comparison => comparison.key.text) =
      (list.map Comparison.key).map OperatorKey.text := by
    rw [List.map_map]
    rfl
  constructor
  · intro distinct
    rw [written] at distinct
    exact List.Nodup.of_map _ distinct
  · intro distinct
    rw [told] at distinct
    exact List.Nodup.of_map _ distinct

theorem distinctKeys_members {combinator : String} {members : List Condition}
    (each : ∀ member ∈ members,
      ((InputValue.ofCondition member).DistinctKeys ↔ member.DistinctOperators)) :
    (InputValue.entry combinator (.list (InputValue.ofConditions members))).DistinctKeys ↔
      DistinctOperatorsOfMembers members := by
  rw [InputValue.distinctKeys_entry, InputValue.DistinctKeys, InputValue.distinctKeysOfItems_iff,
    InputValue.ofConditions_eq_map, List.forall_mem_map, distinctOperatorsOfMembers_iff]
  exact forall₂_congr each

/-- Lists with a repeated operator are all that can give an object a key twice. -/
theorem hereditary_distinctKeys : Hereditary
    (fun condition => condition.Legible →
      ((InputValue.ofCondition condition).DistinctKeys ↔ condition.DistinctOperators))
    (fun condition => condition.Legible →
      ((InputValue.ofFieldCondition condition).DistinctKeys ↔ condition.DistinctOperators)) where
  and members each legible := distinctKeys_members fun member inside =>
    each member inside (legibleMembers_iff.mp legible member inside)
  or members each legible := distinctKeys_members fun member inside =>
    each member inside (legibleMembers_iff.mp legible member inside)
  not inner each legible := InputValue.distinctKeys_entry.trans (each legible)
  fields entries each legible := by
    obtain ⟨ascending, _, legible⟩ := legible
    have names : Named.names (InputValue.ofEntries entries) = Named.names entries := by
      rw [InputValue.ofEntries_eq_map, Named.names, List.map_map]
      rfl
    rw [InputValue.ofCondition, InputValue.DistinctKeys, InputValue.distinctKeysOfEntries_iff,
      names, and_iff_right ascending.names_nodup, InputValue.ofEntries_eq_map, List.forall_mem_map,
      DistinctOperators, distinctOperatorsOfEntries_iff]
    exact forall₂_congr fun entry inside =>
      each entry inside (legibleEntries_iff.mp legible entry inside)
  comparison comparison _ :=
    iff_of_true (InputValue.distinctKeys_entry.mpr trivial) trivial
  comparisons list legible := InputValue.distinctKeys_comparisons.trans (nodup_keys_iff legible)
  comparisonSet set legible := by
    obtain ⟨_, ascending, _⟩ := legible
    refine iff_of_true (InputValue.distinctKeys_comparisons.mpr ?_) trivial
    have distinct := ascending.names_nodup
    rwa [Named.names, List.map_map] at distinct
  nested condition each legible := each legible.1

end Condition

/-- The filter of a hop gives no object a key twice, and so keeps every comparison where each object
keeps one value for each key, exactly if no list of comparisons has an operator twice. -/
theorem Hop.filter_distinctKeys_iff {document : Json} {hop : Hop} {condition : Condition}
    (read : ofJson document = .ok hop) (filtered : hop.filter = some condition) :
    ((InputValue.ofCondition condition).DistinctKeys ↔ condition.DistinctOperators) ∧
      ((InputValue.ofCondition condition).oncePerKey = .ofCondition condition ↔
        condition.DistinctOperators) := by
  have reread := (Read.inlineCondition_eq_ok.mp (settled_filter read condition filtered)).1
  have told := Condition.hereditary_distinctKeys.condition condition
    (Condition.legible_of_read reread).1
  exact ⟨told, InputValue.oncePerKey_eq_self_iff.trans told⟩

/-- A set, a list with two operators and a nested name under a combinator. -/
def boundedDocument : Json :=
  .object [("field", .string "tasks"),
    ("where", .single "_not" (.object [
      ("due", .object [("_gte", .int 1), ("_lt", .int 9)]),
      ("owner", .single "name" (.single "_eq" (.string "Ada"))),
      ("score", .array [.single "_lt" (.int 5), .single "_gt" (.int 2)])]))]

def boundedCondition : Condition :=
  .not (.fields [
    ("due", .comparisonSet [⟨.gte, .int 1⟩, ⟨.lt, .int 9⟩]),
    ("owner", .nested (.field "name" (.comparison ⟨.eq, .string "Ada"⟩))),
    ("score", .comparisons [⟨.lt, .int 5⟩, ⟨.gt, .int 2⟩])])

theorem bounded_distinctKeys :
    ∃ hop, Hop.ofJson boundedDocument = .ok hop ∧ hop.filter = some boundedCondition ∧
      (InputValue.ofCondition boundedCondition).DistinctKeys ∧
      (InputValue.ofCondition boundedCondition).oncePerKey = .ofCondition boundedCondition := by
  have read : Hop.ofJson boundedDocument = .ok _ := rfl
  have filtered : _ = some boundedCondition := rfl
  obtain ⟨distinct, kept⟩ := Hop.filter_distinctKeys_iff read filtered
  have listed : [OperatorKey.lt, OperatorKey.gt].Nodup := by decide
  have operators : boundedCondition.DistinctOperators :=
    ⟨trivial, ⟨trivial, trivial⟩, listed, trivial⟩
  exact ⟨_, read, rfl, distinct.mpr operators, kept.mpr operators⟩

/-- A list that compares one field twice in the same way. -/
def repeatedOperatorDocument : Json :=
  .object [("field", .string "tasks"),
    ("where", .single "score" (.array [.single "_eq" (.int 1), .single "_eq" (.int 2)]))]

def repeatedOperator : Condition :=
  .field "score" (.comparisons [⟨.eq, .int 1⟩, ⟨.eq, .int 2⟩])

/-- A list with an operator twice is written as an object with a key twice, and the first comparison
is lost where objects keep one value for each key. -/
theorem repeatedOperator_lost :
    (InputValue.ofCondition repeatedOperator).text = "\x7bscore: \x7b_eq: 1, _eq: 2\x7d\x7d" ∧
      (InputValue.ofCondition repeatedOperator).oncePerKey.text =
        "\x7bscore: \x7b_eq: 2\x7d\x7d" ∧
      ¬ ∀ document hop condition, Hop.ofJson document = .ok hop → hop.filter = some condition →
        (InputValue.ofCondition condition).DistinctKeys := by
  refine ⟨by decide, by decide, fun distinct => ?_⟩
  obtain ⟨⟨here, _⟩, _⟩ := (distinct repeatedOperatorDocument _ repeatedOperator rfl rfl).2
  exact absurd here (by decide)

end GridQuery
