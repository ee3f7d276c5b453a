import GridQuery.Proofs.Condition.UpToOrder
import GridQuery.Proofs.Json.NumberText
import GridQuery.Proofs.Query.ValueText

/-!
The text of a filter tells the filter up to the form in which the comparisons of a field are given.
Lists and sets compare equal, but a list of fewer than two comparisons does not compare equal to the
single comparison or the empty condition that is written in the same way.
-/

namespace GridQuery

mutual

/-- Of every constraint on a field, in reading order, whether it is a list of fewer than two
comparisons. -/
def Condition.shortLists : Condition → List Bool
  | .and members => Condition.shortListsOfMembers members
  | .or members => Condition.shortListsOfMembers members
  | .not inner => inner.shortLists
  | .fields entries => FieldCondition.shortListsOfEntries entries

def Condition.shortListsOfMembers : List Condition → List Bool
  | [] => []
  | condition :: rest => condition.shortLists ++ Condition.shortListsOfMembers rest

def FieldCondition.shortLists : FieldCondition → List Bool
  | .comparison _ => [false]
  | .comparisons list => [decide (list.length < 2)]
  | .comparisonSet _ => [false]
  | .nested condition => false :: condition.shortLists

def FieldCondition.shortListsOfEntries : List (String × FieldCondition) → List Bool
  | [] => []
  | (_, condition) :: rest => condition.shortLists ++ FieldCondition.shortListsOfEntries rest

end

/-- The comparisons of a constraint that is none on a nested object. -/
def FieldCondition.compared? : FieldCondition → Option (List Comparison)
  | .comparison single => some [single]
  | .comparisons list => some list
  | .comparisonSet set => some set
  | .nested _ => none

section

variable {α β : Type} {relation : α → α → Prop} {marks : α → List Bool} {left right : α}

/-- As many marks on both sides, and the same if the marks are the same. -/
structure Matched (relation : α → α → Prop) (marks : α → List Bool) (left right : α) : Prop where
  places : (marks left).length = (marks right).length
  same : marks left = marks right → relation left right

theorem matched_list {lefts rights : List α}
    (each : List.Forall₂ (Matched relation marks) lefts rights) :
    Matched (List.Forall₂ relation) (List.flatMap marks) lefts rights := by
  induction each with
  | nil => exact ⟨rfl, fun _ => .nil⟩
  | cons here _ ih =>
    refine ⟨?_, fun same => ?_⟩
    · rw [List.flatMap_cons, List.flatMap_cons, List.length_append, List.length_append,
        here.places, ih.places]
    · rw [List.flatMap_cons, List.flatMap_cons] at same
      obtain ⟨first, later⟩ := List.append_inj same here.places
      exact .cons (here.same first) (ih.same later)

theorem forall₂_of_map_eq {write : α → β} {lefts rights : List α}
    (each : ∀ left ∈ lefts, ∀ right ∈ rights, write left = write right → relation left right)
    (same : lefts.map write = rights.map write) : List.Forall₂ relation lefts rights := by
  induction lefts generalizing rights with
  | nil =>
    cases rights with
    | nil => exact .nil
    | cons right rest => cases same
  | cons left lefts ih =>
    cases rights with
    | nil => cases same
    | cons right rights =>
      obtain ⟨here, there⟩ := List.cons.inj same
      obtain ⟨first, later⟩ := List.forall_mem_cons.mp each
      exact .cons (first right (List.mem_cons_self ..) here) (ih (fun left inside right inside' =>
        later left inside right (List.mem_cons_of_mem _ inside')) there)

end

namespace InputValue

mutual

theorem ofJson_injective : ∀ {left right : Json}, ofJson left = ofJson right → left = right
  | .array _, right, same => by
    cases right with
    | array others => exact congrArg Json.array (ofItems_injective (list.inj same))
    | _ => cases same
  | .object _, right, same => by
    cases right with
    | object others => exact congrArg Json.object (ofMembers_injective (object.inj same))
    | _ => cases same
  | .null, right, same => by cases right <;> cases same; rfl
  | .bool _, right, same => by cases right <;> cases same; rfl
  | .number _, right, same => by cases right <;> cases same; rfl
  | .string _, right, same => by cases right <;> cases same; rfl

theorem ofItems_injective : ∀ {items others : List Json}, ofItems items = ofItems others →
    items = others
  | [], [], _ => rfl
  | item :: rest, other :: others, same => by
    obtain ⟨here, later⟩ := List.cons.inj same
    rw [ofJson_injective here, ofItems_injective later]

theorem ofMembers_injective : ∀ {members others : List (String × Json)},
    ofMembers members = ofMembers others → members = others
  | [], [], _ => rfl
  | (name, value) :: rest, (name', value') :: others, same => by
    obtain ⟨here, later⟩ := List.cons.inj same
    obtain ⟨rfl, values⟩ := Prod.mk.inj here
    rw [ofJson_injective values, ofMembers_injective later]

end

theorem spread_entry (key : String) (value : InputValue) :
    (entry key value).spread = .object [(key, value.spread)] := by
  rw [entry, spread, spreadEntries, spreadEntries]

theorem spread_entry_injective {key : String} {left right : InputValue}
    (same : (entry key left).spread = (entry key right).spread) : left.spread = right.spread := by
  rw [spread_entry, spread_entry, object.injEq] at same
  exact (Prod.mk.inj (List.cons.inj same).1).2

theorem spread_conditions (members : List Condition) :
    spread (.list (ofConditions members)) =
      .list (members.map fun member => (ofCondition member).spread) := by
  rw [spread, spreadItems_eq_map, ofConditions_eq_map, List.map_map]
  rfl

theorem spread_fields (entries : List (String × FieldCondition)) :
    (ofCondition (.fields entries)).spread =
      .object (entries.map fun entry => (entry.1, (ofFieldCondition entry.2).spread)) := by
  rw [ofCondition, spread, spreadEntries_eq_map, ofEntries_eq_map, List.map_map]
  rfl

theorem spread_compared {condition : FieldCondition} {list : List Comparison}
    (compared : condition.compared? = some list) :
    (ofFieldCondition condition).spread =
      .object (list.map fun comparison => (comparison.key.text, ofJson comparison.operand)) := by
  have written : ofFieldCondition condition = .object (list.map ofComparison) := by
    cases condition <;> cases compared <;> rfl
  rw [written, spread, spreadEntries_eq_map, List.map_map]
  rfl

/-- The keys of the object that a condition is written as. -/
theorem exists_spread (condition : Condition) :
    ∃ entries, (ofCondition condition).spread = .object entries ∧
      Named.names entries = condition.keys := by
  cases condition with
  | and members => exact ⟨_, spread_entry .., rfl⟩
  | or members => exact ⟨_, spread_entry .., rfl⟩
  | not inner => exact ⟨_, spread_entry .., rfl⟩
  | fields entries =>
    refine ⟨_, spread_fields entries, ?_⟩
    rw [Named.names, List.map_map]
    rfl

end InputValue

namespace Condition

open InputValue (spread_compared exists_spread)

theorem shortListsOfMembers_eq_flatMap (members : List Condition) :
    shortListsOfMembers members = members.flatMap shortLists := by
  induction members with
  | nil => rfl
  | cons member rest ih => rw [shortListsOfMembers, ih, List.flatMap_cons]

theorem shortListsOfEntries_eq_flatMap (entries : List (String × FieldCondition)) :
    FieldCondition.shortListsOfEntries entries =
      (entries.map Prod.snd).flatMap FieldCondition.shortLists := by
  induction entries with
  | nil => rfl
  | cons entry rest ih =>
    rw [FieldCondition.shortListsOfEntries, ih, List.map_cons, List.flatMap_cons]

theorem keys_eq_of_spread {left right : Condition}
    (same : (InputValue.ofCondition left).spread = (InputValue.ofCondition right).spread) :
    left.keys = right.keys := by
  obtain ⟨entries, written, names⟩ := exists_spread left
  obtain ⟨others, written', names'⟩ := exists_spread right
  cases written.symm.trans (same.trans written')
  exact names.symm.trans names'

theorem keys_ne_of_isCombinator {entries : List (String × FieldCondition)} {key : String}
    (combinator : isCombinator key = true) (legible : (fields entries).Legible) :
    (fields entries).keys ≠ [key] := by
  intro keys
  have inside : key ∈ Named.names entries := by
    rw [show Named.names entries = [key] from keys]
    exact List.mem_singleton_self key
  cases (legible.2.1 key inside).symm.trans combinator

theorem legible_of_compared {condition : FieldCondition} {list : List Comparison}
    (legible : condition.Legible) (compared : condition.compared? = some list) :
    ∀ comparison ∈ list, comparison.Legible := by
  cases condition <;> cases compared
  · exact List.forall_mem_singleton.mpr legible
  · exact legible
  · exact legible.2.2

theorem comparison_same_of_text {left right : Comparison} (legible : left.Legible)
    (legible' : right.Legible)
    (same : (left.key.text, InputValue.ofJson left.operand) =
      (right.key.text, InputValue.ofJson right.operand)) : left.Same right := by
  obtain ⟨keys, operands⟩ := Prod.mk.inj same
  exact ⟨by rw [← legible.2, ← legible'.2, keys],
    congrArg Json.dropZeroSigns (InputValue.ofJson_injective operands)⟩

theorem compared_cases {condition : FieldCondition} {list : List Comparison}
    (legible : condition.Legible) (compared : condition.compared? = some list) :
    (∃ single, condition = .comparison single ∧ list = [single]) ∨
      condition.several? = some list ∧ condition.shortLists = [decide (list.length < 2)] := by
  cases condition <;> cases compared
  · exact .inl ⟨_, rfl, rfl⟩
  · exact .inr ⟨rfl, rfl⟩
  · have several : ¬ list.length < 2 := Nat.not_lt.mpr legible.1
    exact .inr ⟨rfl, by rw [decide_eq_false several, FieldCondition.shortLists]⟩

/-- Only where one side is a single comparison and the other a list of one do the marks differ. -/
theorem matched_compared {left right : FieldCondition} {lefts rights : List Comparison}
    (legible : left.Legible) (legible' : right.Legible) (compared : left.compared? = some lefts)
    (compared' : right.compared? = some rights)
    (pairs : List.Forall₂ Comparison.Same lefts rights) :
    Matched FieldCondition.Same FieldCondition.shortLists left right := by
  have length := pairs.length_eq
  rcases compared_cases legible compared with ⟨single, rfl, rfl⟩ | ⟨several, marks⟩ <;>
    rcases compared_cases legible' compared' with ⟨single', rfl, rfl⟩ | ⟨several', marks'⟩
  · exact ⟨rfl, fun _ => .comparison (List.forall₂_cons.mp pairs).1⟩
  · exact ⟨by rw [marks']; rfl, fun same => by
      simp [FieldCondition.shortLists, marks', ← length] at same⟩
  · exact ⟨by rw [marks]; rfl, fun same => by
      simp [FieldCondition.shortLists, marks, length] at same⟩
  · exact ⟨by rw [marks, marks']; rfl, fun _ => .several several several' pairs (.refl _)⟩

/-- Of a nested condition and comparisons that are written alike neither has anything in it. -/
theorem empty_of_nested {inner : Condition} {other : FieldCondition} {list : List Comparison}
    (legible : (FieldCondition.nested inner).Legible) (legible' : other.Legible)
    (compared : other.compared? = some list)
    (same : (InputValue.ofCondition inner).spread = (InputValue.ofFieldCondition other).spread) :
    inner = .fields [] ∧ other = .comparisons [] := by
  obtain ⟨entries, written, names⟩ := exists_spread inner
  rw [written, spread_compared compared, InputValue.object.injEq] at same
  have keys : inner.keys = list.map fun comparison => comparison.key.text := by
    rw [← names, same, Named.names, List.map_map]
    rfl
  have none : inner.keys = [] := by
    refine legible.2.resolve_right ?_
    rintro ⟨key, inside, other⟩
    rw [keys] at inside
    obtain ⟨comparison, member, rfl⟩ := List.mem_map.mp inside
    cases (legible_of_compared legible' compared comparison member).1.symm.trans other
  obtain rfl : list = [] := List.map_eq_nil_iff.mp (keys.symm.trans none)
  constructor
  · cases inner with
    | fields entries => exact congrArg fields (List.map_eq_nil_iff.mp none)
    | _ => cases none
  · cases other with
    | comparisons list => exact congrArg FieldCondition.comparisons (Option.some.inj compared)
    | comparison single => cases compared
    | comparisonSet set =>
      cases compared
      cases legible'.1
    | nested condition => cases compared

theorem compared_or_nested (condition : FieldCondition) :
    (∃ list, condition.compared? = some list) ∨ ∃ inner, condition = .nested inner := by
  cases condition
  · exact .inl ⟨_, rfl⟩
  · exact .inl ⟨_, rfl⟩
  · exact .inl ⟨_, rfl⟩
  · exact .inr ⟨_, rfl⟩

/-- The comparisons of a field are told by what they are written as. -/
theorem matched_of_compared {condition : FieldCondition} {list : List Comparison}
    (compared : condition.compared? = some list) (legible : condition.Legible) :
    ∀ other : FieldCondition, other.Legible →
      (InputValue.ofFieldCondition condition).spread = (InputValue.ofFieldCondition other).spread →
        Matched FieldCondition.Same FieldCondition.shortLists condition other := by
  intro other legible' same
  rcases compared_or_nested other with ⟨others, compared'⟩ | ⟨inner, rfl⟩
  · refine matched_compared legible legible' compared compared' ?_
    rw [spread_compared compared, spread_compared compared', InputValue.object.injEq] at same
    exact forall₂_of_map_eq (fun comparison inside second inside' =>
      comparison_same_of_text (legible_of_compared legible compared comparison inside)
        (legible_of_compared legible' compared' second inside')) same
  · obtain ⟨rfl, rfl⟩ := empty_of_nested legible' legible compared same.symm
    exact ⟨rfl, fun marks => by cases marks⟩

theorem matched_members {members others : List Condition}
    (each : ∀ member ∈ members, member.Legible → ∀ other : Condition, other.Legible →
      (InputValue.ofCondition member).spread = (InputValue.ofCondition other).spread →
        Matched Same shortLists member other)
    (legible : LegibleMembers members) (legible' : LegibleMembers others)
    (same : (InputValue.list (InputValue.ofConditions members)).spread =
      (InputValue.list (InputValue.ofConditions others)).spread) :
    Matched (List.Forall₂ Same) shortListsOfMembers members others := by
  rw [InputValue.spread_conditions, InputValue.spread_conditions, InputValue.list.injEq] at same
  have pairs := matched_list (forall₂_of_map_eq (fun member inside other inside' =>
    each member inside (legibleMembers_iff.mp legible member inside) other
      (legibleMembers_iff.mp legible' other inside')) same)
  exact ⟨by simpa only [shortListsOfMembers_eq_flatMap] using pairs.places,
    by simpa only [shortListsOfMembers_eq_flatMap] using pairs.same⟩

theorem matched_entries {entries others : List (String × FieldCondition)}
    (each : ∀ entry ∈ entries, entry.2.Legible → ∀ other : FieldCondition, other.Legible →
      (InputValue.ofFieldCondition entry.2).spread = (InputValue.ofFieldCondition other).spread →
        Matched FieldCondition.Same FieldCondition.shortLists entry.2 other)
    (legible : FieldCondition.LegibleEntries entries)
    (legible' : FieldCondition.LegibleEntries others)
    (same : (InputValue.ofCondition (.fields entries)).spread =
      (InputValue.ofCondition (.fields others)).spread) :
    Matched (fun entries others => List.Forall₂ FieldCondition.Same (entries.map Prod.snd)
      (others.map Prod.snd)) FieldCondition.shortListsOfEntries entries others := by
  rw [InputValue.spread_fields, InputValue.spread_fields, InputValue.object.injEq] at same
  have pairs : List.Forall₂ (fun entry other =>
      Matched FieldCondition.Same FieldCondition.shortLists entry.2 other.2) entries others :=
    forall₂_of_map_eq (fun entry inside other inside' written =>
      each entry inside (legibleEntries_iff.mp legible entry inside) other.2
        (legibleEntries_iff.mp legible' other inside') (Prod.mk.inj written).2) same
  have values := matched_list
    (List.forall₂_map_left_iff.mpr (List.forall₂_map_right_iff.mpr pairs))
  exact ⟨by simpa only [shortListsOfEntries_eq_flatMap] using values.places,
    by simpa only [shortListsOfEntries_eq_flatMap] using values.same⟩

/-- Conditions that are written alike have constraints in the same places, and are equal if short
lists stand in the same ones. -/
theorem hereditary_matched : Hereditary
    (fun condition => condition.Legible → ∀ other : Condition, other.Legible →
      (InputValue.ofCondition condition).spread = (InputValue.ofCondition other).spread →
        Matched Same shortLists condition other)
    (fun condition => condition.Legible → ∀ other : FieldCondition, other.Legible →
      (InputValue.ofFieldCondition condition).spread = (InputValue.ofFieldCondition other).spread →
        Matched FieldCondition.Same FieldCondition.shortLists condition other) where
  and members each legible := by
    intro other legible' same
    have keys := keys_eq_of_spread same
    cases other with
    | and others =>
      have pairs := matched_members each legible legible' (InputValue.spread_entry_injective same)
      exact ⟨pairs.places, fun marks => .and (pairs.same marks) (.refl _)⟩
    | fields entries => exact absurd keys.symm (keys_ne_of_isCombinator (by decide) legible')
    | _ => exact absurd keys (by simp [Condition.keys])
  or members each legible := by
    intro other legible' same
    have keys := keys_eq_of_spread same
    cases other with
    | or others =>
      have pairs := matched_members each legible legible' (InputValue.spread_entry_injective same)
      exact ⟨pairs.places, fun marks => .or (pairs.same marks) (.refl _)⟩
    | fields entries => exact absurd keys.symm (keys_ne_of_isCombinator (by decide) legible')
    | _ => exact absurd keys (by simp [Condition.keys])
  not inner each legible := by
    intro other legible' same
    have keys := keys_eq_of_spread same
    cases other with
    | not second =>
      have inside := each legible second legible' (InputValue.spread_entry_injective same)
      exact ⟨inside.places, fun marks => .not (inside.same marks)⟩
    | fields entries => exact absurd keys.symm (keys_ne_of_isCombinator (by decide) legible')
    | _ => exact absurd keys (by simp [Condition.keys])
  fields entries each legible := by
    intro other legible' same
    have keys := keys_eq_of_spread same
    cases other with
    | fields others =>
      have pairs := matched_entries each legible.2.2 legible'.2.2 same
      exact ⟨pairs.places, fun marks => .fields keys (pairs.same marks)⟩
    | _ => exact absurd keys (keys_ne_of_isCombinator (by decide) legible)
  comparison comparison := matched_of_compared rfl
  comparisons list := matched_of_compared rfl
  comparisonSet set := matched_of_compared rfl
  nested condition each legible := by
    intro other legible' same
    rcases compared_or_nested other with ⟨others, compared⟩ | ⟨inner, rfl⟩
    · obtain ⟨rfl, rfl⟩ := empty_of_nested legible legible' compared same
      exact ⟨rfl, fun marks => by cases marks⟩
    · have inside := each legible.1 inner legible'.1 same
      exact ⟨congrArg (· + 1) inside.places,
        fun marks => .nested (inside.same (List.cons.inj marks).2)⟩

/-- All that the condition writes without quotes are names. -/
structure Bare (condition : Condition) : Prop where
  names : ∀ name ∈ condition.names, Text.isName name = true
  keys : ∀ operand ∈ condition.operands, ∀ key ∈ operand.keys, Text.isName key = true

variable {left right : Condition}

theorem Bare.built (bare : left.Bare) : InputValue.Built (InputValue.IsScalar fun _ => True)
    (InputValue.ofCondition left).spread := by
  refine InputValue.Built.spread ?_
    ((InputValue.hereditary_built _).condition left bare.names bare.keys)
  rintro _ ⟨operand, rfl, keys⟩
  exact InputValue.built_ofJson operand keys fun _ _ => trivial

theorem spread_eq_of_text (bare : left.Bare) (bare' : right.Bare)
    (same : (InputValue.ofCondition left).text = (InputValue.ofCondition right).text) :
    (InputValue.ofCondition left).spread = (InputValue.ofCondition right).spread := by
  have chars : (InputValue.ofCondition left).spread.chars ++ [] =
      (InputValue.ofCondition right).spread.chars ++ [] := by
    rw [InputValue.chars_spread, InputValue.chars_spread, List.append_nil, List.append_nil]
    exact String.ofList_injective same
  have ends : Text.AtBreak [] := by rintro _ ⟨⟩
  exact (bare.built.tells (InputValue.leafTold_isScalar Json.numbersTold) bare'.built ends ends
    chars).1

/-- Filters with the same text are equal if short lists stand in the same places. -/
theorem same_of_text (legible : left.Legible) (legible' : right.Legible) (bare : left.Bare)
    (bare' : right.Bare)
    (same : (InputValue.ofCondition left).text = (InputValue.ofCondition right).text)
    (marks : left.shortLists = right.shortLists) : left.same right = true := by
  have matched := hereditary_matched.condition left legible right legible'
    (spread_eq_of_text bare bare' same)
  have ordered := hereditary_ordered.condition left legible
  have ordered' := hereditary_ordered.condition right legible'
  exact (hereditary_decides.condition left ordered right ordered').mpr (matched.same marks)

end Condition

end GridQuery
