import GridQuery.Proofs.Json.ScalarText
import GridQuery.Proofs.Query.BareKeys

/-!
The texts of argument values tell the values, up to the difference between arrays and objects inside
a scalar and lists and objects of values, which are written alike: `spread` replaces the former by
the latter. What a leaf may be depends on the argument, since an enum name and a word of JSON may
look the same.
-/

namespace GridQuery

open Text

mutual

/-- The numbers inside a value, in reading order. -/
def Json.numbers : Json → List Number
  | .number value => [value]
  | .array items => Json.numbersOfItems items
  | .object members => Json.numbersOfMembers members
  | _ => []

def Json.numbersOfItems : List Json → List Number
  | [] => []
  | item :: rest => item.numbers ++ Json.numbersOfItems rest

def Json.numbersOfMembers : List (String × Json) → List Number
  | [] => []
  | (_, value) :: rest => value.numbers ++ Json.numbersOfMembers rest

end

namespace InputValue

mutual

def ofJson : Json → InputValue
  | .array items => .list (ofItems items)
  | .object members => .object (ofMembers members)
  | value => .scalar value

def ofItems : List Json → List InputValue
  | [] => []
  | item :: rest => ofJson item :: ofItems rest

def ofMembers : List (String × Json) → List (String × InputValue)
  | [] => []
  | (name, value) :: rest => (name, ofJson value) :: ofMembers rest

end

mutual

/-- The value with the arrays and objects inside its scalars as lists and objects. -/
def spread : InputValue → InputValue
  | .reference name => .reference name
  | .enumName name => .enumName name
  | .scalar value => ofJson value
  | .list items => .list (spreadItems items)
  | .object entries => .object (spreadEntries entries)

def spreadItems : List InputValue → List InputValue
  | [] => []
  | item :: rest => spread item :: spreadItems rest

def spreadEntries : List (String × InputValue) → List (String × InputValue)
  | [] => []
  | (key, value) :: rest => (key, spread value) :: spreadEntries rest

end

theorem spreadItems_eq_map (items : List InputValue) : spreadItems items = items.map spread := by
  induction items with
  | nil => rfl
  | cons item rest ih => rw [spreadItems, ih, List.map_cons]

theorem spreadEntries_eq_map (entries : List (String × InputValue)) :
    spreadEntries entries = entries.map fun entry => (entry.1, entry.2.spread) := by
  induction entries with
  | nil => rfl
  | cons entry rest ih => rw [spreadEntries, ih, List.map_cons]

mutual

theorem chars_ofJson : ∀ value : Json, (ofJson value).chars = scalarChars value
  | .array items => by rw [ofJson, chars, scalarChars, itemChars_ofItems items]
  | .object members => by rw [ofJson, chars, scalarChars, entryChars_ofMembers members]
  | .null => rfl
  | .bool _ => rfl
  | .number _ => rfl
  | .string _ => rfl

theorem itemChars_ofItems : ∀ items : List Json, itemChars (ofItems items) = scalarItems items
  | [] => rfl
  | item :: rest => by
    rw [ofItems, itemChars, scalarItems, chars_ofJson item, itemChars_ofItems rest]

theorem entryChars_ofMembers :
    ∀ members : List (String × Json), entryChars (ofMembers members) = scalarMembers members
  | [] => rfl
  | (name, value) :: rest => by
    rw [ofMembers, entryChars, scalarMembers, chars_ofJson value, entryChars_ofMembers rest]

end

mutual

/-- Spreading a value does not change its text. -/
theorem chars_spread : ∀ value : InputValue, value.spread.chars = value.chars
  | .reference _ => rfl
  | .enumName _ => rfl
  | .scalar value => chars_ofJson value
  | .list items => by rw [spread, chars, chars, itemChars_spread items]
  | .object entries => by rw [spread, chars, chars, entryChars_spread entries]

theorem itemChars_spread :
    ∀ items : List InputValue, itemChars (spreadItems items) = itemChars items
  | [] => rfl
  | item :: rest => by
    rw [spreadItems, itemChars, itemChars, chars_spread item, itemChars_spread rest]

theorem entryChars_spread :
    ∀ entries : List (String × InputValue), entryChars (spreadEntries entries) = entryChars entries
  | [] => rfl
  | (key, value) :: rest => by
    rw [spreadEntries, entryChars, entryChars, chars_spread value, entryChars_spread rest]

end

/-- A value of lists and objects whose keys are names, down to the given leaves. -/
inductive Built (leaf : InputValue → Prop) : InputValue → Prop
  | leaf {value : InputValue} : leaf value → Built leaf value
  | list {items : List InputValue} : (∀ item ∈ items, Built leaf item) → Built leaf (.list items)
  | object {entries : List (String × InputValue)} :
    (∀ entry ∈ entries, isName entry.1 = true) → (∀ entry ∈ entries, Built leaf entry.2) →
      Built leaf (.object entries)

def entryText (entry : String × InputValue) : List Char :=
  entry.1.toList ++ ':' :: ' ' :: entry.2.chars

theorem itemChars_eq_map (items : List InputValue) : itemChars items = items.map chars := by
  induction items with
  | nil => rfl
  | cons item rest ih => rw [itemChars, ih, List.map_cons]

theorem entryChars_eq_map (entries : List (String × InputValue)) :
    entryChars entries = entries.map entryText := by
  induction entries with
  | nil => rfl
  | cons entry rest ih =>
    rw [entryChars, ih, List.map_cons]
    rfl

section

variable {leaf : InputValue → Prop}

/-- The text of a leaf tells it among the leaves, and is none of a list or object. -/
structure LeafTold (leaf : InputValue → Prop) : Prop where
  tells : ∀ value, leaf value → Tells chars leaf value
  begun : ∀ value, leaf value → Begun value.chars

theorem unlike_built (told : LeafTold leaf) {mark : Char} (other : isWordPart mark = false)
    (unquoted : mark ≠ '"') (square : mark ≠ '[') (curly : mark ≠ '\x7b') :
    Unlike chars (Built leaf) mark := by
  intro value built rest rest'
  cases built with
  | leaf holds => exact (told.begun value holds).unlike other unquoted rest rest'
  | list items => exact fun same => square (List.cons.inj same).1.symm
  | object names values => exact fun same => curly (List.cons.inj same).1.symm

theorem unlike_entry {mark : Char} (other : isWordPart mark = false) (unquoted : mark ≠ '"') :
    Unlike entryText (fun entry => isName entry.1 = true ∧ Built leaf entry.2) mark := by
  intro entry ⟨named, _⟩ rest rest'
  rw [entryText, List.append_assoc]
  exact (begun_of_isName named).unlike other unquoted _ rest'

theorem entry_tells {entry : String × InputValue} (named : isName entry.1 = true)
    (tells : Tells chars (Built leaf) entry.2) :
    Tells entryText (fun entry => isName entry.1 = true ∧ Built leaf entry.2) entry := by
  rintro ⟨key, value⟩ rest rest' ⟨named', built⟩ after after' same
  simp only [entryText, List.append_assoc, List.cons_append] at same
  obtain ⟨keys, same⟩ :=
    name_tells named named' (atBreak_cons (by decide)) (atBreak_cons (by decide)) same
  simp only [List.cons.injEq, true_and] at same
  obtain ⟨values, continued⟩ := tells built after after' same
  exact ⟨Prod.ext keys values, continued⟩

/-- The text of a value tells it, if the text of a leaf tells the leaf. -/
theorem Built.tells (told : LeafTold leaf) {value : InputValue} (built : Built leaf value) :
    Tells chars (Built leaf) value := by
  induction built with
  | @leaf value holds =>
    have begun := told.begun value holds
    intro other rest rest' built' after after' same
    cases built' with
    | leaf holds' => exact told.tells value holds holds' after after' same
    | list items => exact absurd same (begun.unlike (by decide) (by decide) _ _)
    | object names values => exact absurd same (begun.unlike (by decide) (by decide) _ _)
  | @list items each ih =>
    intro other rest rest' built' after after' same
    cases built' with
    | leaf holds' =>
      exact absurd same.symm ((told.begun other holds').unlike (by decide) (by decide) _ _)
    | @list others each' =>
      simp only [chars, itemChars_eq_map, List.cons_append, List.append_assoc, List.nil_append,
        List.cons.injEq, true_and] at same
      obtain ⟨rfl, continued⟩ := list_tells (by decide) (by decide)
        (unlike_built told (by decide) (by decide) (by decide) (by decide)) ih each each' same
      exact ⟨rfl, continued⟩
    | object names values => exact absurd (List.cons.inj same).1 (by decide)
  | @object entries names each ih =>
    intro other rest rest' built' after after' same
    cases built' with
    | leaf holds' =>
      exact absurd same.symm ((told.begun other holds').unlike (by decide) (by decide) _ _)
    | list items => exact absurd (List.cons.inj same).1 (by decide)
    | @object others names' each' =>
      simp only [chars, entryChars_eq_map, List.cons_append, List.append_assoc, List.nil_append,
        List.cons.injEq, true_and] at same
      obtain ⟨rfl, continued⟩ := list_tells (by decide) (by decide)
        (unlike_entry (by decide) (by decide))
        (fun entry inside => entry_tells (names entry inside) (ih entry inside))
        (fun entry inside => ⟨names entry inside, each entry inside⟩)
        (fun entry inside => ⟨names' entry inside, each' entry inside⟩) same
      exact ⟨rfl, continued⟩

end

/-- The scalars whose numbers are among the given ones. -/
def IsScalar (N : Number → Prop) : InputValue → Prop
  | .scalar value => Json.Scalar N value
  | _ => False

def IsEnum : InputValue → Prop
  | .enumName name => isName name = true
  | _ => False

theorem leafTold_isEnum : LeafTold IsEnum where
  tells value named other rest rest' named' after after' same := by
    cases value with
    | enumName name =>
      cases other with
      | enumName other =>
        obtain ⟨rfl, continued⟩ := name_tells named named' after after' same
        exact ⟨rfl, continued⟩
      | _ => cases named'
    | _ => cases named
  begun value named := by
    cases value with
    | enumName name => exact begun_of_isName named
    | _ => cases named

section

variable {N : Number → Prop}

theorem scalarChars_of_scalar {value : Json} (scalar : Json.Scalar N value) :
    scalarChars value = value.compactChars := by
  cases value with
  | array items => cases scalar
  | object members => cases scalar
  | _ => rfl

theorem leafTold_isScalar (told : Json.NumbersTold N) : LeafTold (IsScalar N) where
  tells value scalar other rest rest' scalar' after after' same := by
    cases value with
    | scalar value =>
      cases other with
      | scalar other =>
        rw [chars, chars, scalarChars_of_scalar scalar, scalarChars_of_scalar scalar'] at same
        obtain ⟨rfl, continued⟩ := Json.Scalar.tells told scalar scalar' after after' same
        exact ⟨rfl, continued⟩
      | _ => cases scalar'
    | _ => cases scalar
  begun value scalar := by
    cases value with
    | scalar value =>
      rw [chars, scalarChars_of_scalar scalar]
      exact Json.Scalar.begun scalar
    | _ => cases scalar

mutual

theorem built_ofJson : ∀ value : Json, (∀ key ∈ value.keys, isName key = true) →
    (∀ number ∈ value.numbers, N number) → Built (IsScalar N) (ofJson value)
  | .array items, names, numbers => .list (built_ofItems items names numbers)
  | .object members, names, numbers => .object
    (fun entry inside => (built_ofMembers members names numbers entry inside).1)
    (fun entry inside => (built_ofMembers members names numbers entry inside).2)
  | .null, _, _ => .leaf trivial
  | .bool _, _, _ => .leaf trivial
  | .number value, _, numbers => .leaf (numbers value (List.mem_singleton_self _))
  | .string _, _, _ => .leaf trivial

theorem built_ofItems : ∀ items : List Json, (∀ key ∈ Json.keysOfItems items, isName key = true) →
    (∀ number ∈ Json.numbersOfItems items, N number) →
      ∀ item ∈ ofItems items, Built (IsScalar N) item
  | [], _, _ => nofun
  | item :: rest, names, numbers => by
    obtain ⟨name, names⟩ := List.forall_mem_append.mp names
    obtain ⟨number, numbers⟩ := List.forall_mem_append.mp numbers
    exact List.forall_mem_cons.mpr
      ⟨built_ofJson item name number, built_ofItems rest names numbers⟩

theorem built_ofMembers : ∀ members : List (String × Json),
    (∀ key ∈ Json.keysOfMembers members, isName key = true) →
    (∀ number ∈ Json.numbersOfMembers members, N number) →
      ∀ entry ∈ ofMembers members, isName entry.1 = true ∧ Built (IsScalar N) entry.2
  | [], _, _ => nofun
  | (name, value) :: rest, names, numbers => by
    obtain ⟨name, names⟩ := List.forall_mem_cons.mp names
    obtain ⟨inner, names⟩ := List.forall_mem_append.mp names
    obtain ⟨number, numbers⟩ := List.forall_mem_append.mp numbers
    exact List.forall_mem_cons.mpr
      ⟨⟨name, built_ofJson value inner number⟩, built_ofMembers rest names numbers⟩

end

theorem Built.entry {leaf : InputValue → Prop} {key : String} {value : InputValue}
    (named : isName key = true) (built : Built leaf value) : Built leaf (entry key value) :=
  .object (List.forall_mem_singleton.mpr named) (List.forall_mem_singleton.mpr built)

/-- Spreading the leaves is enough. -/
theorem Built.spread {leaf part : InputValue → Prop}
    (each : ∀ value, leaf value → Built part value.spread) {value : InputValue}
    (built : Built leaf value) : Built part value.spread := by
  induction built with
  | leaf holds => exact each _ holds
  | list _ ih =>
    rw [InputValue.spread, spreadItems_eq_map]
    exact .list (List.forall_mem_map.mpr ih)
  | object names _ ih =>
    rw [InputValue.spread, spreadEntries_eq_map]
    exact .object (List.forall_mem_map.mpr names) (List.forall_mem_map.mpr ih)

/-- The scalars that have the property. -/
def IsOperand (P : Json → Prop) (value : InputValue) : Prop :=
  ∃ operand, value = .scalar operand ∧ P operand

theorem built_comparisons {P : Json → Prop} (comparisons : List Comparison)
    (names : ∀ name ∈ comparisons.map fun comparison => comparison.key.text, isName name = true)
    (operands : ∀ operand ∈ comparisons.map Comparison.operand, P operand) :
    Built (IsOperand P) (object (comparisons.map ofComparison)) :=
  .object (List.forall_mem_map.mpr (List.forall_mem_map.mp names))
    (List.forall_mem_map.mpr fun comparison inside =>
      .leaf ⟨_, rfl, List.forall_mem_map.mp operands comparison inside⟩)

theorem built_members {P : Json → Prop} {combinator : String} {members : List Condition}
    (named : isName combinator = true)
    (each : ∀ member ∈ members, (∀ name ∈ member.names, isName name = true) →
      (∀ operand ∈ member.operands, P operand) → Built (IsOperand P) (ofCondition member))
    (names : ∀ name ∈ Condition.namesOfList members, isName name = true)
    (operands : ∀ operand ∈ Condition.operandsOfList members, P operand) :
    Built (IsOperand P) (entry combinator (.list (ofConditions members))) := by
  refine .entry named (.list ?_)
  rw [ofConditions_eq_map]
  refine List.forall_mem_map.mpr fun member inside => each member inside ?_ ?_
  · exact fun name among => names name (Condition.mem_namesOfList.mpr ⟨member, inside, among⟩)
  · exact fun operand part =>
      operands operand (Condition.mem_operandsOfList.mpr ⟨member, inside, part⟩)

/-- The filters whose fields and comparison keys are names are built from their operands. -/
theorem hereditary_built (P : Json → Prop) : Condition.Hereditary
    (fun condition => (∀ name ∈ condition.names, isName name = true) →
      (∀ operand ∈ condition.operands, P operand) → Built (IsOperand P) (ofCondition condition))
    (fun condition => (∀ name ∈ condition.names, isName name = true) →
      (∀ operand ∈ condition.operands, P operand) →
        Built (IsOperand P) (ofFieldCondition condition)) where
  and members each := built_members (by decide) each
  or members each := built_members (by decide) each
  not inner each names operands := .entry (by decide) (each names operands)
  fields entries each names operands := by
    rw [ofCondition, ofEntries_eq_map]
    refine .object (List.forall_mem_map.mpr fun entry inside => ?_)
      (List.forall_mem_map.mpr fun entry inside => each entry inside ?_ ?_)
    · exact names _ (Condition.mem_namesOfEntries.mpr ⟨entry, inside, .inl rfl⟩)
    · exact fun name among =>
        names name (Condition.mem_namesOfEntries.mpr ⟨entry, inside, .inr among⟩)
    · exact fun operand part =>
        operands operand (Condition.mem_operandsOfEntries.mpr ⟨entry, inside, part⟩)
  comparison comparison := built_comparisons [comparison]
  comparisons list := built_comparisons list
  comparisonSet set := built_comparisons set
  nested condition each := each

end

theorem isEnum_spread {value : InputValue} (named : IsEnum value) : Built IsEnum value.spread := by
  cases value with
  | enumName name => exact .leaf named
  | _ => cases named

theorem built_nestSegments {value : InputValue} (built : Built IsEnum value) {first : String}
    {rest : List String} (names : ∀ segment ∈ first :: rest, isName segment = true) :
    Built IsEnum (nestSegments value first rest) := by
  induction rest generalizing first with
  | nil => exact .entry (names first (List.mem_cons_self ..)) built
  | cons second rest ih =>
    obtain ⟨name, names⟩ := List.forall_mem_cons.mp names
    exact .entry name (ih names)

theorem built_ofOrderTerm {term : OrderTerm}
    (names : ∀ segment ∈ (Path.ofString term.field).segments, isName segment = true) :
    Built IsEnum (ofOrderTerm term) := by
  refine built_nestSegments (.leaf ?_) names
  change isName term.direction.text = true
  cases term.direction <;> decide

end InputValue

namespace Argument

def spread (argument : Argument) : Argument :=
  ⟨argument.name, argument.value.spread⟩

/-- What the leaves of an argument are: enum names in an ordering, scalars elsewhere. -/
def Leaf (N : Number → Prop) (name : String) : InputValue → Prop :=
  if name = "where" then InputValue.IsScalar N
  else if name = "orderBy" ∨ name = "distinctOn" then InputValue.IsEnum
  else InputValue.IsScalar fun number => ∃ n : Nat, number = .integer n

def Plain (N : Number → Prop) (argument : Argument) : Prop :=
  isName argument.name = true ∧ InputValue.Built (Leaf N argument.name) argument.value

variable {N : Number → Prop}

theorem leafTold (told : Json.NumbersTold N) (name : String) :
    InputValue.LeafTold (Leaf N name) := by
  unfold Leaf
  split_ifs
  · exact InputValue.leafTold_isScalar told
  · exact InputValue.leafTold_isEnum
  · exact InputValue.leafTold_isScalar Json.numbersTold_integer

theorem tells (told : Json.NumbersTold N) {argument : Argument} (plain : argument.Plain N) :
    Tells Document.argumentChars (Plain N) argument := by
  obtain ⟨name, value⟩ := argument
  rintro ⟨other, value'⟩ rest rest' plain' after after' same
  simp only [Document.argumentChars, List.append_assoc, List.cons_append] at same
  obtain ⟨rfl, values⟩ :=
    name_tells plain.1 plain'.1 (atBreak_cons (by decide)) (atBreak_cons (by decide)) same
  simp only [List.cons.injEq, true_and] at values
  obtain ⟨rfl, continued⟩ := plain.2.tells (leafTold told name) plain'.2 after after' values
  exact ⟨rfl, continued⟩

theorem argumentsChars_spread (arguments : List Argument) :
    Document.argumentsChars (arguments.map spread) = Document.argumentsChars arguments := by
  have each (argument : Argument) :
      Document.argumentChars argument.spread = Document.argumentChars argument := by
    simp only [Document.argumentChars, spread, InputValue.chars_spread]
  simp only [Document.argumentsChars, List.isEmpty_map, List.map_map, Function.comp_def, each]

/-- The arguments of a field, or their absence, are told where no bracket comes next. -/
theorem list_tells (told : Json.NumbersTold N) {arguments others : List Argument}
    {rest rest' : List Char} (plain : ∀ argument ∈ arguments, argument.Plain N)
    (plain' : ∀ other ∈ others, other.Plain N) (after : ∀ tail, rest ≠ '(' :: tail)
    (after' : ∀ tail, rest' ≠ '(' :: tail)
    (same : Document.argumentsChars arguments ++ rest = Document.argumentsChars others ++ rest') :
    arguments = others ∧ rest = rest' := by
  have opens : Unlike Document.argumentChars (Plain N) ')' := by
    intro argument ⟨named, _⟩ rest rest'
    rw [Document.argumentChars, List.append_assoc]
    exact (begun_of_isName named).unlike (by decide) (by decide) _ rest'
  cases arguments with
  | nil =>
    cases others with
    | nil => exact ⟨rfl, same⟩
    | cons other others => exact absurd same (after _)
  | cons argument arguments =>
    cases others with
    | nil => exact absurd same.symm (after' _)
    | cons other others =>
      simp only [Document.argumentsChars, List.isEmpty_cons, Bool.false_eq_true, if_false,
        List.cons_append, List.append_assoc, List.nil_append, List.cons.injEq, true_and] at same
      exact Text.list_tells (by decide) (by decide) opens
        (fun argument inside => tells told (plain argument inside)) plain plain' same

end Argument

end GridQuery
