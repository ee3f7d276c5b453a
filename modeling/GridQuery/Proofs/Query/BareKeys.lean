import GridQuery.Proofs.Query.Request
import GridQuery.Query.Document

/-!
The keys of objects are written into a document without quotes. In the filter of a hop the keys
inside operands are checked when the hop is read; the names of fields and the keys of comparisons
are not, and they are written as they are.
-/

namespace GridQuery

mutual

/-- The names of all fields and the keys of all comparisons, in reading order. -/
def Condition.names : Condition → List String
  | .and members => Condition.namesOfList members
  | .or members => Condition.namesOfList members
  | .not inner => inner.names
  | .fields entries => FieldCondition.namesOfEntries entries

def Condition.namesOfList : List Condition → List String
  | [] => []
  | condition :: rest => condition.names ++ Condition.namesOfList rest

def FieldCondition.names : FieldCondition → List String
  | .comparison comparison => [comparison.key.text]
  | .comparisons list => list.map fun comparison => comparison.key.text
  | .comparisonSet set => set.map fun comparison => comparison.key.text
  | .nested condition => condition.names

def FieldCondition.namesOfEntries : List (String × FieldCondition) → List String
  | [] => []
  | (name, condition) :: rest => name :: (condition.names ++ FieldCondition.namesOfEntries rest)

end

namespace InputValue

mutual

/-- The keys of all objects inside a value, in writing order. -/
def keys : InputValue → List String
  | .reference _ => []
  | .enumName _ => []
  | .scalar value => value.keys
  | .list items => keysOfItems items
  | .object entries => keysOfEntries entries

def keysOfItems : List InputValue → List String
  | [] => []
  | item :: rest => keys item ++ keysOfItems rest

def keysOfEntries : List (String × InputValue) → List String
  | [] => []
  | (key, value) :: rest => key :: (keys value ++ keysOfEntries rest)

end

end InputValue

namespace InputValue

variable {key : String}

theorem mem_keysOfItems {items : List InputValue} :
    key ∈ keysOfItems items ↔ ∃ item ∈ items, key ∈ item.keys := by
  induction items with
  | nil => simp [keysOfItems]
  | cons item rest ih => simp [keysOfItems, ih]

theorem mem_keysOfEntries {entries : List (String × InputValue)} :
    key ∈ keysOfEntries entries ↔ ∃ entry ∈ entries, key = entry.1 ∨ key ∈ entry.2.keys := by
  induction entries with
  | nil => simp [keysOfEntries]
  | cons entry rest ih => simp [keysOfEntries, ih, or_assoc]

theorem ofConditions_eq_map (members : List Condition) :
    ofConditions members = members.map ofCondition := by
  induction members with
  | nil => rfl
  | cons member rest ih => rw [ofConditions, ih, List.map_cons]

theorem ofEntries_eq_map (entries : List (String × FieldCondition)) :
    ofEntries entries = entries.map fun entry => (entry.1, ofFieldCondition entry.2) := by
  induction entries with
  | nil => rfl
  | cons entry rest ih => rw [ofEntries, ih, List.map_cons]

theorem mem_keys_entry {name : String} {value : InputValue} :
    key ∈ (entry name value).keys ↔ key = name ∨ key ∈ value.keys := by
  simp [entry, keys, keysOfEntries]

theorem mem_keys_conditions {members : List Condition} :
    key ∈ (list (ofConditions members)).keys ↔
      ∃ member ∈ members, key ∈ (ofCondition member).keys := by
  simp [keys, mem_keysOfItems, ofConditions_eq_map]

theorem mem_keys_fields {entries : List (String × FieldCondition)} :
    key ∈ (object (ofEntries entries)).keys ↔
      ∃ entry ∈ entries, key = entry.1 ∨ key ∈ (ofFieldCondition entry.2).keys := by
  rw [keys, mem_keysOfEntries, ofEntries_eq_map]
  simp

end InputValue

theorem isName_of_isCombinator {key : String} (combinator : isCombinator key = true) :
    Text.isName key = true := by
  simp only [isCombinator, Bool.or_eq_true, decide_eq_true_eq] at combinator
  obtain (rfl | rfl) | rfl := combinator <;> decide

namespace Condition

variable {key : String}

theorem mem_namesOfList {members : List Condition} :
    key ∈ namesOfList members ↔ ∃ member ∈ members, key ∈ member.names := by
  induction members with
  | nil => simp [namesOfList]
  | cons member rest ih => simp [namesOfList, ih]

theorem mem_namesOfEntries {entries : List (String × FieldCondition)} :
    key ∈ FieldCondition.namesOfEntries entries ↔
      ∃ entry ∈ entries, key = entry.1 ∨ key ∈ entry.2.names := by
  induction entries with
  | nil => simp [FieldCondition.namesOfEntries]
  | cons entry rest ih => simp [FieldCondition.namesOfEntries, ih, or_assoc]

theorem mem_keys_members {combinator : String} {members : List Condition}
    (other : key ≠ combinator)
    (each : ∀ member ∈ members, key ∈ (InputValue.ofCondition member).keys ↔
      key ∈ member.names ∨ ∃ operand ∈ member.operands, key ∈ operand.keys) :
    key ∈ (InputValue.entry combinator (.list (InputValue.ofConditions members))).keys ↔
      key ∈ namesOfList members ∨ ∃ operand ∈ operandsOfList members, key ∈ operand.keys := by
  rw [InputValue.mem_keys_entry, or_iff_right other, InputValue.mem_keys_conditions,
    mem_namesOfList]
  simp only [mem_operandsOfList]
  constructor
  · rintro ⟨member, inside, written⟩
    rcases (each member inside).mp written with name | ⟨operand, part, among⟩
    · exact .inl ⟨member, inside, name⟩
    · exact .inr ⟨operand, ⟨member, inside, part⟩, among⟩
  · rintro (⟨member, inside, name⟩ | ⟨operand, ⟨member, inside, part⟩, among⟩)
    · exact ⟨member, inside, (each member inside).mpr (.inl name)⟩
    · exact ⟨member, inside, (each member inside).mpr (.inr ⟨operand, part, among⟩)⟩

theorem mem_keys_comparisons (comparisons : List Comparison) :
    key ∈ (InputValue.object (comparisons.map InputValue.ofComparison)).keys ↔
      key ∈ (comparisons.map fun comparison => comparison.key.text) ∨
        ∃ operand ∈ comparisons.map Comparison.operand, key ∈ operand.keys := by
  rw [InputValue.keys, InputValue.mem_keysOfEntries]
  simp only [List.mem_map, exists_exists_and_eq_and, InputValue.ofComparison, InputValue.keys]
  constructor
  · rintro ⟨comparison, inside, rfl | among⟩
    · exact .inl ⟨comparison, inside, rfl⟩
    · exact .inr ⟨comparison, inside, among⟩
  · rintro (⟨comparison, inside, rfl⟩ | ⟨comparison, inside, among⟩)
    · exact ⟨comparison, inside, .inl rfl⟩
    · exact ⟨comparison, inside, .inr among⟩

/-- Combinators apart, the written keys are the names of the condition and the keys inside its
operands. -/
theorem hereditary_keys (plain : isCombinator key = false) : Hereditary
    (fun condition => key ∈ (InputValue.ofCondition condition).keys ↔
      key ∈ condition.names ∨ ∃ operand ∈ condition.operands, key ∈ operand.keys)
    (fun condition => key ∈ (InputValue.ofFieldCondition condition).keys ↔
      key ∈ condition.names ∨ ∃ operand ∈ condition.operands, key ∈ operand.keys) where
  and members each := mem_keys_members (by rintro rfl; cases plain) each
  or members each := mem_keys_members (by rintro rfl; cases plain) each
  not inner each := by
    have other : key ≠ "_not" := by
      rintro rfl
      cases plain
    rw [InputValue.ofCondition, InputValue.mem_keys_entry, or_iff_right other]
    exact each
  fields entries each := by
    rw [InputValue.ofCondition, InputValue.mem_keys_fields, names, mem_namesOfEntries]
    simp only [operands, mem_operandsOfEntries]
    constructor
    · rintro ⟨entry, inside, same | written⟩
      · exact .inl ⟨entry, inside, .inl same⟩
      · rcases (each entry inside).mp written with name | ⟨operand, part, among⟩
        · exact .inl ⟨entry, inside, .inr name⟩
        · exact .inr ⟨operand, ⟨entry, inside, part⟩, among⟩
    · rintro (⟨entry, inside, same | name⟩ | ⟨operand, ⟨entry, inside, part⟩, among⟩)
      · exact ⟨entry, inside, .inl same⟩
      · exact ⟨entry, inside, .inr ((each entry inside).mpr (.inl name))⟩
      · exact ⟨entry, inside, .inr ((each entry inside).mpr (.inr ⟨operand, part, among⟩))⟩
  comparison comparison := mem_keys_comparisons [comparison]
  comparisons list := mem_keys_comparisons list
  comparisonSet set := mem_keys_comparisons set
  nested condition each := each

end Condition

namespace Json

theorem infix_separated {separator piece : List Char} {pieces : List (List Char)}
    (member : piece ∈ pieces) : piece <:+: separated separator pieces := by
  induction pieces with
  | nil => cases member
  | cons first rest ih =>
    cases rest with
    | nil =>
      cases List.mem_singleton.mp member
      exact List.infix_rfl
    | cons second rest =>
      rcases List.mem_cons.mp member with rfl | later
      · exact ⟨[], separator ++ separated separator (second :: rest), by simp [separated]⟩
      · exact (ih later).trans (List.suffix_append ..).isInfix

end Json

namespace InputValue

theorem infix_enclosed {opening closing : Char} {separator part piece : List Char}
    {pieces : List (List Char)} (inside : part <:+: piece) (member : piece ∈ pieces) :
    part <:+: opening :: Json.separated separator pieces ++ [closing] :=
  (inside.trans (Json.infix_separated member)).trans (List.infix_append [opening] _ [closing])

theorem infix_member (name : String) (written : List Char) :
    written <:+: name.toList ++ ':' :: ' ' :: written :=
  ⟨name.toList ++ [':', ' '], [], by simp⟩

variable {key : String}

mutual

/-- A key is written as it is. -/
theorem scalarChars_key : ∀ {value : Json}, key ∈ value.keys →
    key.toList ++ [':', ' '] <:+: scalarChars value
  | .array items, among => by
    obtain ⟨piece, member, inside⟩ := scalarItems_key among
    exact infix_enclosed inside member
  | .object members, among => by
    obtain ⟨piece, member, inside⟩ := scalarMembers_key among
    exact infix_enclosed inside member

theorem scalarItems_key : ∀ {items : List Json}, key ∈ Json.keysOfItems items →
    ∃ piece ∈ scalarItems items, key.toList ++ [':', ' '] <:+: piece
  | item :: rest, among => by
    rcases List.mem_append.mp among with here | later
    · exact ⟨_, List.mem_cons_self .., scalarChars_key here⟩
    · obtain ⟨piece, member, inside⟩ := scalarItems_key later
      exact ⟨piece, List.mem_cons_of_mem _ member, inside⟩

theorem scalarMembers_key : ∀ {members : List (String × Json)}, key ∈ Json.keysOfMembers members →
    ∃ piece ∈ scalarMembers members, key.toList ++ [':', ' '] <:+: piece
  | (name, value) :: rest, among => by
    rcases List.mem_cons.mp among with rfl | among
    · exact ⟨_, List.mem_cons_self .., [], scalarChars value, by simp⟩
    rcases List.mem_append.mp among with here | later
    · exact ⟨_, List.mem_cons_self .., (scalarChars_key here).trans (infix_member ..)⟩
    · obtain ⟨piece, member, inside⟩ := scalarMembers_key later
      exact ⟨piece, List.mem_cons_of_mem _ member, inside⟩

end

mutual

theorem chars_key : ∀ {value : InputValue}, key ∈ value.keys →
    key.toList ++ [':', ' '] <:+: value.chars
  | .scalar value, among => scalarChars_key among
  | .list items, among => by
    obtain ⟨piece, member, inside⟩ := itemChars_key among
    exact infix_enclosed inside member
  | .object entries, among => by
    obtain ⟨piece, member, inside⟩ := entryChars_key among
    exact infix_enclosed inside member

theorem itemChars_key : ∀ {items : List InputValue}, key ∈ keysOfItems items →
    ∃ piece ∈ itemChars items, key.toList ++ [':', ' '] <:+: piece
  | item :: rest, among => by
    rcases List.mem_append.mp among with here | later
    · exact ⟨_, List.mem_cons_self .., chars_key here⟩
    · obtain ⟨piece, member, inside⟩ := itemChars_key later
      exact ⟨piece, List.mem_cons_of_mem _ member, inside⟩

theorem entryChars_key : ∀ {entries : List (String × InputValue)}, key ∈ keysOfEntries entries →
    ∃ piece ∈ entryChars entries, key.toList ++ [':', ' '] <:+: piece
  | (name, value) :: rest, among => by
    rcases List.mem_cons.mp among with rfl | among
    · exact ⟨_, List.mem_cons_self .., [], chars value, by simp⟩
    rcases List.mem_append.mp among with here | later
    · exact ⟨_, List.mem_cons_self .., (chars_key here).trans (infix_member ..)⟩
    · obtain ⟨piece, member, inside⟩ := entryChars_key later
      exact ⟨piece, List.mem_cons_of_mem _ member, inside⟩

end

end InputValue

/-- Inside the operands of a hop's filter all keys are names. Of the keys that the filter writes
without quotes, each as it is, those that are no names are fields and comparison keys of its own. -/
theorem Hop.filter_keys {document : Json} {hop : Hop} {condition : Condition}
    (read : ofJson document = .ok hop) (filtered : hop.filter = some condition) :
    (∀ operand ∈ condition.operands, ∀ key ∈ operand.keys, Text.isName key = true) ∧
      (∀ key, Text.isName key = false →
        (key ∈ (InputValue.ofCondition condition).keys ↔ key ∈ condition.names)) ∧
      ∀ key ∈ (InputValue.ofCondition condition).keys,
        key.toList ++ [':', ' '] <:+: (InputValue.ofCondition condition).chars := by
  have inside := (Read.inlineCondition_eq_ok.mp (settled_filter read condition filtered)).2
  refine ⟨inside, fun key unlike => ?_, fun key => InputValue.chars_key⟩
  have plain : isCombinator key = false := by
    cases combinator : isCombinator key with
    | false => rfl
    | true => rw [isName_of_isCombinator combinator] at unlike; cases unlike
  rw [(Condition.hereditary_keys plain).condition condition, or_iff_left]
  rintro ⟨operand, member, among⟩
  rw [inside operand member key among] at unlike
  cases unlike

/-- The name of a field that ends its object and opens one in a selection of its own. -/
def breakoutField : String :=
  "done: \x7b\x7d\x7d) secret(where: \x7bid"

def breakoutKey : String :=
  "_eq: 1\x7d\x7d) other(where: \x7bx: \x7b_eq"

def breakoutDocument : Json :=
  .object [("field", .string "tasks"),
    ("where", .single breakoutField (.single breakoutKey (.int 2)))]

def breakoutCondition : Condition :=
  .field breakoutField (.comparison ⟨.custom breakoutKey, .int 2⟩)

theorem breakout_filter_keys :
    ∃ hop, Hop.ofJson breakoutDocument = .ok hop ∧ hop.filter = some breakoutCondition ∧
      breakoutField ∈ (InputValue.ofCondition breakoutCondition).keys ∧
      breakoutKey ∈ (InputValue.ofCondition breakoutCondition).keys := by
  have read : Hop.ofJson breakoutDocument = .ok _ := rfl
  have filtered : _ = some breakoutCondition := rfl
  obtain ⟨_, outside, _⟩ := Hop.filter_keys read filtered
  refine ⟨_, read, rfl, (outside _ (by decide)).mpr ?_, (outside _ (by decide)).mpr ?_⟩
  · simp [breakoutCondition, Condition.field, Condition.names, FieldCondition.namesOfEntries]
  · simp [breakoutCondition, Condition.field, Condition.names, FieldCondition.namesOfEntries,
      FieldCondition.names, OperatorKey.text]

/-- A field of a filter and the key of a comparison add two selections to the document. -/
theorem breakout_unquoted :
    (InputValue.ofCondition breakoutCondition).text =
        "\x7b" ++ breakoutField ++ ": \x7b" ++ breakoutKey ++ ": 2\x7d\x7d" ∧
      ¬ ∀ document hop condition, Hop.ofJson document = .ok hop → hop.filter = some condition →
        ∀ key ∈ (InputValue.ofCondition condition).keys, Text.isName key = true := by
  refine ⟨by decide, fun quoted => ?_⟩
  have name := quoted breakoutDocument _ breakoutCondition rfl rfl breakoutField
    (List.mem_cons_self ..)
  exact absurd name (by decide)

end GridQuery
