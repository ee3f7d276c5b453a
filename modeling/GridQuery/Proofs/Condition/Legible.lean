import GridQuery.Condition.Reader
import GridQuery.Proofs.Json.Canonical
import GridQuery.Proofs.Outcome

/-!
Conditions that can be told from their JSON form. Reading guesses from the keys of an object what
the object is; a condition is legible if no guess about its own JSON form goes wrong. Whatever is
read is legible, and what is legible is read back as it was.
-/

namespace GridQuery

section

variable (property : Condition → Prop) (fieldProperty : FieldCondition → Prop)

/-- What passes from the parts of conditions and field conditions to the whole. -/
structure Condition.Hereditary : Prop where
  and : ∀ members, (∀ member ∈ members, property member) → property (.and members)
  or : ∀ members, (∀ member ∈ members, property member) → property (.or members)
  not : ∀ inner, property inner → property inner.not
  fields : ∀ entries, (∀ entry ∈ entries, fieldProperty entry.2) → property (.fields entries)
  comparison : ∀ comparison, fieldProperty (.comparison comparison)
  comparisons : ∀ list, fieldProperty (.comparisons list)
  comparisonSet : ∀ set, fieldProperty (.comparisonSet set)
  nested : ∀ condition, property condition → fieldProperty (.nested condition)

variable {property fieldProperty}

mutual

theorem Condition.Hereditary.condition (rules : Hereditary property fieldProperty) :
    ∀ condition, property condition
  | .and members => rules.and members (rules.members members)
  | .or members => rules.or members (rules.members members)
  | .not inner => rules.not inner (rules.condition inner)
  | .fields entries => rules.fields entries (rules.entries entries)
termination_by structural condition => condition

theorem Condition.Hereditary.members (rules : Hereditary property fieldProperty) :
    ∀ members : List Condition, ∀ member ∈ members, property member
  | [] => by simp
  | condition :: rest => List.forall_mem_cons.mpr ⟨rules.condition condition, rules.members rest⟩

theorem Condition.Hereditary.fieldCondition (rules : Hereditary property fieldProperty) :
    ∀ condition, fieldProperty condition
  | .comparison comparison => rules.comparison comparison
  | .comparisons list => rules.comparisons list
  | .comparisonSet set => rules.comparisonSet set
  | .nested condition => rules.nested condition (rules.condition condition)

theorem Condition.Hereditary.entries (rules : Hereditary property fieldProperty) :
    ∀ entries : List (String × FieldCondition), ∀ entry ∈ entries, fieldProperty entry.2
  | [] => by simp
  | (_, condition) :: rest =>
    List.forall_mem_cons.mpr ⟨rules.fieldCondition condition, rules.entries rest⟩

end

end

theorem OperatorKey.text_ofText (key : String) : (ofText key).text = key := by
  unfold ofText
  cases found : builtins.find? fun builtin => builtin.text = key with
  | none => rfl
  | some builtin => simpa using List.find?_some found

/-- The key is that of a comparison and gives the operator again. -/
def Comparison.Legible (comparison : Comparison) : Prop :=
  isComparisonKey comparison.key.text = true ∧
    OperatorKey.ofText comparison.key.text = comparison.key

theorem isComparisonObject_eq_false_iff {members : List (String × Json)} :
    isComparisonObject members = false ↔
      members = [] ∨ ∃ name ∈ Named.names members, isComparisonKey name = false := by
  simp [isComparisonObject, Named.names, or_iff_not_imp_left]

theorem ofMember_legible {member : String × Json} (key : isComparisonKey member.1 = true) :
    (Comparison.ofMember member).Legible := by
  simp [Comparison.Legible, Comparison.ofMember, OperatorKey.text_ofText, key]

/-- The keys of the object that a condition is written as. -/
def Condition.keys : Condition → List String
  | .and _ => ["_and"]
  | .or _ => ["_or"]
  | .not _ => ["_not"]
  | .fields entries => Named.names entries

mutual

def Condition.Legible : Condition → Prop
  | .and members => Condition.LegibleMembers members
  | .or members => Condition.LegibleMembers members
  | .not inner => inner.Legible
  | .fields entries => Named.Ascending entries ∧
    (∀ name ∈ Named.names entries, isCombinator name = false) ∧
      FieldCondition.LegibleEntries entries

def Condition.LegibleMembers : List Condition → Prop
  | [] => True
  | condition :: rest => condition.Legible ∧ Condition.LegibleMembers rest

/-- A set has at least two comparisons, in the order of their keys. An object below a field that has
only comparison keys would be read as comparisons. -/
def FieldCondition.Legible : FieldCondition → Prop
  | .comparison comparison => comparison.Legible
  | .comparisons list => ∀ comparison ∈ list, comparison.Legible
  | .comparisonSet set => 2 ≤ set.length ∧ Named.Ascending (set.map Comparison.member) ∧
    ∀ comparison ∈ set, comparison.Legible
  | .nested condition => condition.Legible ∧
    (condition.keys = [] ∨ ∃ key ∈ condition.keys, isComparisonKey key = false)

def FieldCondition.LegibleEntries : List (String × FieldCondition) → Prop
  | [] => True
  | (_, condition) :: rest => condition.Legible ∧ FieldCondition.LegibleEntries rest

end

namespace Condition

theorem legibleMembers_iff {members : List Condition} :
    LegibleMembers members ↔ ∀ member ∈ members, member.Legible := by
  induction members with
  | nil => simp [LegibleMembers]
  | cons member rest ih => simp [LegibleMembers, ih]

theorem legibleEntries_iff {entries : List (String × FieldCondition)} :
    FieldCondition.LegibleEntries entries ↔ ∀ entry ∈ entries, entry.2.Legible := by
  induction entries with
  | nil => simp [FieldCondition.LegibleEntries]
  | cons entry rest ih => simp [FieldCondition.LegibleEntries, ih]

theorem names_of_ofMembers {members : List (String × Json)}
    {entries : List (String × FieldCondition)}
    (read : FieldCondition.ofMembers members = .ok entries) :
    Named.names entries = Named.names members := by
  induction members generalizing entries with
  | nil =>
    cases read
    rfl
  | cons member rest ih =>
    obtain ⟨name, value⟩ := member
    rw [FieldCondition.ofMembers] at read
    obtain ⟨entry, here, read⟩ := bind_eq_ok.mp read
    obtain ⟨others, there, read⟩ := bind_eq_ok.mp read
    cases read
    obtain ⟨condition, _, rfl⟩ := map_eq_ok.mp here
    exact congrArg (name :: ·) (ih there)

/-- What the key of a single member says about the condition read from it. -/
theorem ofMember_eq_ok {key : String} {value : Json} {condition : Condition}
    (read : ofMember (key, value) = .ok condition) :
    (∃ members, ofList key value = .ok members ∧
      (condition = .and members ∨ condition = .or members)) ∨
    (∃ inner, ofJson value = .ok inner ∧ condition = inner.not) ∨
    (isCombinator key = false ∧
      ∃ inner, FieldCondition.ofJson key value = .ok inner ∧ condition = field key inner) := by
  rw [ofMember] at read
  split at read
  next same =>
    obtain ⟨members, listed, rfl⟩ := map_eq_ok.mp read
    exact Or.inl ⟨members, same ▸ listed, Or.inl rfl⟩
  next notAnd =>
    split at read
    next same =>
      obtain ⟨members, listed, rfl⟩ := map_eq_ok.mp read
      exact Or.inl ⟨members, same ▸ listed, Or.inr rfl⟩
    next notOr =>
      split at read
      next =>
        obtain ⟨inner, inside, rfl⟩ := map_eq_ok.mp read
        exact Or.inr (Or.inl ⟨inner, inside, rfl⟩)
      next notNot =>
        obtain ⟨inner, inside, rfl⟩ := map_eq_ok.mp read
        exact Or.inr (Or.inr ⟨by simp [isCombinator, notAnd, notOr, notNot], inner, inside, rfl⟩)

theorem ofObject_plain {member second : String × Json} {rest : List (String × Json)}
    (plain : ∀ name ∈ Named.names (member :: second :: rest), isCombinator name = false) :
    ofObject (member :: second :: rest) =
      (FieldCondition.ofMembers (member :: second :: rest)).map .fields := by
  have none : ¬ (member :: second :: rest).any (fun member => isCombinator member.1) = true := by
    simpa [Named.names] using plain
  rw [ofObject, if_neg none]
  conv_rhs => rw [FieldCondition.ofMembers]
  cases FieldCondition.ofMember member with
  | error fault => rfl
  | ok first => cases FieldCondition.ofMembers (second :: rest) <;> rfl

/-- What several members are read as: a conjunction if one has the key of a combinator, entries
otherwise. -/
theorem ofObject_eq_ok {member second : String × Json} {rest : List (String × Json)}
    {condition : Condition} (read : ofObject (member :: second :: rest) = .ok condition) :
    (∃ members, ofMembers (member :: second :: rest) = .ok members ∧ condition = .and members) ∨
    ((∀ name ∈ Named.names (member :: second :: rest), isCombinator name = false) ∧
      ∃ entries, FieldCondition.ofMembers (member :: second :: rest) = .ok entries ∧
        condition = .fields entries) := by
  rw [ofObject] at read
  split at read
  next =>
    obtain ⟨first, here, read⟩ := bind_eq_ok.mp read
    obtain ⟨others, there, read⟩ := bind_eq_ok.mp read
    cases read
    exact Or.inl ⟨first :: others, by rw [ofMembers, here, there]; rfl, rfl⟩
  next none =>
    obtain ⟨first, here, read⟩ := bind_eq_ok.mp read
    obtain ⟨others, there, read⟩ := bind_eq_ok.mp read
    cases read
    refine Or.inr ⟨?_, first :: others, by rw [FieldCondition.ofMembers, here, there]; rfl, rfl⟩
    simpa [Named.names] using none

/-- An object that is not taken for comparisons is not written as one that is. -/
theorem keys_of_ofObject {members : List (String × Json)} {condition : Condition}
    (told : isComparisonObject members = false) (read : ofObject members = .ok condition) :
    condition.keys = [] ∨ ∃ key ∈ condition.keys, isComparisonKey key = false := by
  match members with
  | [] =>
    cases read
    exact Or.inl rfl
  | [(key, value)] =>
    rcases ofMember_eq_ok read with ⟨members, _, rfl | rfl⟩ | ⟨inner, _, rfl⟩ | ⟨_, inner, _, rfl⟩
    · exact Or.inr ⟨"_and", List.mem_singleton_self _, by decide⟩
    · exact Or.inr ⟨"_or", List.mem_singleton_self _, by decide⟩
    · exact Or.inr ⟨"_not", List.mem_singleton_self _, by decide⟩
    · exact Or.inr ((isComparisonObject_eq_false_iff.mp told).resolve_left (List.cons_ne_nil _ _))
  | member :: second :: rest =>
    rcases ofObject_eq_ok read with ⟨members, _, rfl⟩ | ⟨_, entries, listed, rfl⟩
    · exact Or.inr ⟨"_and", List.mem_singleton_self _, by decide⟩
    · rw [keys, names_of_ofMembers listed]
      exact Or.inr ((isComparisonObject_eq_false_iff.mp told).resolve_left (List.cons_ne_nil _ _))

theorem comparisonsOfItems_legible {field : String} {items : List Json} {list : List Comparison}
    (read : comparisonsOfItems field items = .ok list) :
    ∀ comparison ∈ list, comparison.Legible := by
  induction items generalizing list with
  | nil =>
    cases read
    simp
  | cons item rest ih =>
    cases item with
    | object members =>
      rw [comparisonsOfItems] at read
      split at read
      next comparisons =>
        obtain ⟨others, later, rfl⟩ := map_eq_ok.mp read
        obtain ⟨_, keys⟩ := Bool.and_eq_true_iff.mp comparisons
        refine List.forall_mem_append.mpr ⟨List.forall_mem_map.mpr ?_, ih later⟩
        exact fun member inside => ofMember_legible (List.all_eq_true.mp keys member inside)
      next => cases read
    | null => cases read
    | bool value => cases read
    | number value => cases read
    | string text => cases read
    | array items => cases read

/-- Comparisons of an object are legible: one as it is, several as a set. -/
theorem comparisonObject_legible {field : String} {members : List (String × Json)}
    {condition : FieldCondition} (ascending : Named.Ascending members)
    (comparisons : isComparisonObject members = true)
    (read : FieldCondition.ofJson field (.object members) = .ok condition) :
    condition.Legible := by
  obtain ⟨_, keys⟩ := Bool.and_eq_true_iff.mp comparisons
  have legible : ∀ member ∈ members, (Comparison.ofMember member).Legible :=
    fun member inside => ofMember_legible (List.all_eq_true.mp keys member inside)
  unfold FieldCondition.ofJson at read
  rw [if_pos comparisons] at read
  split at read
  next =>
    cases read
    exact legible _ (List.mem_singleton_self _)
  next several =>
    cases read
    refine ⟨?_, ?_, List.forall_mem_map.mpr legible⟩
    · match members, comparisons, several with
      | first :: second :: rest, _, _ => simp
      | [member], _, several => exact (several member rfl).elim
    · have members_eq : (members.map Comparison.ofMember).map Comparison.member = members := by
        rw [List.map_map]
        exact List.map_id'' (fun member => by
          simp [Comparison.member, Comparison.ofMember, OperatorKey.text_ofText]) members
      rw [members_eq]
      exact ascending

mutual

/-- A condition read from a value is legible. -/
theorem ofJson_legible : ∀ {value : Json} {condition : Condition}, value.Canonical →
    ofJson value = .ok condition → condition.Legible
  | .object _, _, canonical, read => ofObject_legible canonical.1 canonical.2 read
  | .null, _, _, read => by cases read
  | .bool _, _, _, read => by cases read
  | .number _, _, _, read => by cases read
  | .string _, _, _, read => by cases read
  | .array _, _, _, read => by cases read

theorem ofObject_legible : ∀ {members : List (String × Json)} {condition : Condition},
    Named.Ascending members → Json.CanonicalMembers members → ofObject members = .ok condition →
      condition.Legible
  | [], _, _, _, read => by
    cases read
    exact ⟨.nil, by simp [Named.names], trivial⟩
  | [_], _, _, canonical, read => ofMember_legible canonical.1 read
  | member :: second :: rest, _, ascending, canonical, read => by
    rcases ofObject_eq_ok read with ⟨members, listed, rfl⟩ | ⟨plain, entries, listed, rfl⟩
    · exact ofMembers_legible canonical listed
    · have names := names_of_ofMembers listed
      refine ⟨?_, names ▸ plain, fieldOfMembers_legible canonical listed⟩
      apply List.pairwise_map.mp
      rw [← Named.names, names]
      exact ascending.names_pairwise

theorem ofMember_legible : ∀ {member : String × Json} {condition : Condition},
    member.2.Canonical → ofMember member = .ok condition → condition.Legible
  | (key, value), _, canonical, read => by
    rcases ofMember_eq_ok read with
      ⟨members, listed, rfl | rfl⟩ | ⟨inner, inside, rfl⟩ | ⟨plain, inner, inside, rfl⟩
    · exact ofList_legible canonical listed
    · exact ofList_legible canonical listed
    · show inner.Legible
      exact ofJson_legible canonical inside
    · exact ⟨List.pairwise_singleton .., List.forall_mem_singleton.mpr plain,
        fieldOfJson_legible canonical inside, trivial⟩

theorem ofMembers_legible : ∀ {members : List (String × Json)} {conditions : List Condition},
    Json.CanonicalMembers members → ofMembers members = .ok conditions →
      LegibleMembers conditions
  | [], _, _, read => by
    cases read
    trivial
  | member :: rest, _, canonical, read => by
    rw [ofMembers] at read
    obtain ⟨first, here, read⟩ := bind_eq_ok.mp read
    obtain ⟨others, there, read⟩ := bind_eq_ok.mp read
    cases read
    exact ⟨ofMember_legible canonical.1 here, ofMembers_legible canonical.2 there⟩

theorem ofList_legible : ∀ {key : String} {value : Json} {conditions : List Condition},
    value.Canonical → ofList key value = .ok conditions → LegibleMembers conditions
  | _, .array _, _, canonical, read => ofItems_legible canonical read
  | _, .null, _, _, read => by cases read
  | _, .bool _, _, _, read => by cases read
  | _, .number _, _, _, read => by cases read
  | _, .string _, _, _, read => by cases read
  | _, .object _, _, _, read => by cases read

theorem ofItems_legible : ∀ {items : List Json} {conditions : List Condition},
    Json.CanonicalItems items → ofItems items = .ok conditions → LegibleMembers conditions
  | [], _, _, read => by
    cases read
    trivial
  | item :: rest, _, canonical, read => by
    rw [ofItems] at read
    obtain ⟨first, here, read⟩ := bind_eq_ok.mp read
    obtain ⟨others, there, read⟩ := bind_eq_ok.mp read
    cases read
    exact ⟨ofJson_legible canonical.1 here, ofItems_legible canonical.2 there⟩

theorem fieldOfJson_legible : ∀ {field : String} {value : Json} {condition : FieldCondition},
    value.Canonical → FieldCondition.ofJson field value = .ok condition → condition.Legible
  | _, .array _, _, _, read => by
    obtain ⟨list, listed, rfl⟩ := map_eq_ok.mp read
    exact comparisonsOfItems_legible listed
  | _, .object members, _, canonical, read => by
    cases told : isComparisonObject members with
    | true => exact comparisonObject_legible canonical.1 told read
    | false =>
      unfold FieldCondition.ofJson at read
      rw [told, if_neg Bool.false_ne_true] at read
      obtain ⟨inner, inside, rfl⟩ := map_eq_ok.mp read
      exact ⟨ofObject_legible canonical.1 canonical.2 inside, keys_of_ofObject told inside⟩
  | _, .null, _, _, read => by cases read
  | _, .bool _, _, _, read => by cases read
  | _, .number _, _, _, read => by cases read
  | _, .string _, _, _, read => by cases read

theorem fieldOfMember_legible : ∀ {member : String × Json} {entry : String × FieldCondition},
    member.2.Canonical → FieldCondition.ofMember member = .ok entry → entry.2.Legible
  | (name, value), _, canonical, read => by
    obtain ⟨condition, inside, rfl⟩ := map_eq_ok.mp read
    exact fieldOfJson_legible canonical inside

theorem fieldOfMembers_legible : ∀ {members : List (String × Json)}
    {entries : List (String × FieldCondition)}, Json.CanonicalMembers members →
      FieldCondition.ofMembers members = .ok entries → FieldCondition.LegibleEntries entries
  | [], _, _, read => by
    cases read
    trivial
  | member :: rest, _, canonical, read => by
    rw [FieldCondition.ofMembers] at read
    obtain ⟨first, here, read⟩ := bind_eq_ok.mp read
    obtain ⟨others, there, read⟩ := bind_eq_ok.mp read
    cases read
    exact ⟨fieldOfMember_legible canonical.1 here, fieldOfMembers_legible canonical.2 there⟩

end

theorem names_entriesToJson (entries : List (String × FieldCondition)) :
    Named.names (FieldCondition.entriesToJson entries) = Named.names entries := by
  induction entries with
  | nil => rfl
  | cons entry rest ih => exact congrArg (entry.1 :: ·) ih

theorem toJson_keys (condition : Condition) :
    ∃ members, condition.toJson = .object members ∧ Named.names members = condition.keys := by
  cases condition with
  | and members => exact ⟨_, rfl, rfl⟩
  | or members => exact ⟨_, rfl, rfl⟩
  | not inner => exact ⟨_, rfl, rfl⟩
  | fields entries => exact ⟨_, rfl, names_entriesToJson entries⟩

theorem ofItems_listToJson_iff {members : List Condition} :
    ofItems (listToJson members) = .ok members ↔
      ∀ member ∈ members, ofJson member.toJson = .ok member := by
  induction members with
  | nil => exact iff_of_true rfl nofun
  | cons member rest ih =>
    rw [List.forall_mem_cons, ← ih, listToJson, ofItems, bind_eq_ok]
    constructor
    · rintro ⟨first, here, read⟩
      obtain ⟨others, there, read⟩ := bind_eq_ok.mp read
      cases read
      exact ⟨here, there⟩
    · rintro ⟨here, there⟩
      exact ⟨member, here, bind_eq_ok.mpr ⟨rest, there, rfl⟩⟩

theorem ofMembers_entriesToJson {entries : List (String × FieldCondition)}
    (reread : ∀ entry ∈ entries, FieldCondition.ofJson entry.1 entry.2.toJson = .ok entry.2) :
    FieldCondition.ofMembers (FieldCondition.entriesToJson entries) = .ok entries := by
  induction entries with
  | nil => rfl
  | cons entry rest ih =>
    obtain ⟨here, later⟩ := List.forall_mem_cons.mp reread
    rw [FieldCondition.entriesToJson, FieldCondition.ofMembers, FieldCondition.ofMember, here,
      ih later]
    rfl

theorem ofObject_entriesToJson {entries : List (String × FieldCondition)}
    (plain : ∀ name ∈ Named.names entries, isCombinator name = false)
    (reread : ∀ entry ∈ entries, FieldCondition.ofJson entry.1 entry.2.toJson = .ok entry.2) :
    ofObject (FieldCondition.entriesToJson entries) = .ok (.fields entries) := by
  match entries with
  | [] => rfl
  | [(name, condition)] =>
    have unlike : isCombinator name = false := plain name (List.mem_singleton_self _)
    have here : FieldCondition.ofJson name condition.toJson = .ok condition :=
      reread (name, condition) (List.mem_singleton_self _)
    simp only [isCombinator, Bool.or_eq_false_iff, decide_eq_false_iff_not] at unlike
    rw [FieldCondition.entriesToJson, FieldCondition.entriesToJson, ofObject, ofMember,
      if_neg unlike.1.1, if_neg unlike.1.2, if_neg unlike.2, here]
    rfl
  | (first, one) :: (second, other) :: rest =>
    rw [← names_entriesToJson] at plain
    rw [FieldCondition.entriesToJson, FieldCondition.entriesToJson] at plain ⊢
    rw [ofObject_plain plain]
    exact congrArg (Except.map fields) (ofMembers_entriesToJson reread)

variable {field : String} {list : List Comparison}

theorem ofMember_member (legible : ∀ comparison ∈ list, comparison.Legible) :
    (list.map Comparison.member).map Comparison.ofMember = list := by
  induction list with
  | nil => rfl
  | cons comparison rest ih =>
    obtain ⟨⟨_, operator⟩, later⟩ := List.forall_mem_cons.mp legible
    have here : Comparison.ofMember comparison.member = comparison := by
      rw [Comparison.ofMember, Comparison.member, operator]
    rw [List.map_cons, List.map_cons, here, ih later]

theorem isComparisonObject_member (nonempty : list ≠ [])
    (legible : ∀ comparison ∈ list, comparison.Legible) :
    isComparisonObject (list.map Comparison.member) = true := by
  rw [isComparisonObject, Bool.and_eq_true_iff]
  refine ⟨by simpa using nonempty, List.all_eq_true.mpr (List.forall_mem_map.mpr ?_)⟩
  exact fun comparison inside => (legible comparison inside).1

theorem comparisonsOfItems_toJson (legible : ∀ comparison ∈ list, comparison.Legible) :
    comparisonsOfItems field (list.map Comparison.toJson) = .ok list := by
  induction list with
  | nil => rfl
  | cons comparison rest ih =>
    obtain ⟨here, later⟩ := List.forall_mem_cons.mp legible
    have alone := List.forall_mem_singleton.mpr here
    have single : isComparisonObject [comparison.member] = true :=
      isComparisonObject_member (List.cons_ne_nil _ _) alone
    have same : [comparison.member].map Comparison.ofMember = [comparison] := ofMember_member alone
    rw [List.map_cons, Comparison.toJson, comparisonsOfItems, if_pos single, same, ih later]
    rfl

theorem comparison_rereads {comparison : Comparison} (legible : comparison.Legible) :
    FieldCondition.ofJson field comparison.toJson = .ok (.comparison comparison) := by
  have alone := List.forall_mem_singleton.mpr legible
  have told : isComparisonObject [comparison.member] = true :=
    isComparisonObject_member (List.cons_ne_nil _ _) alone
  have same : [comparison.member].map Comparison.ofMember = [comparison] := ofMember_member alone
  unfold Comparison.toJson FieldCondition.ofJson
  rw [if_pos told]
  exact congrArg (fun comparison => Except.ok (FieldCondition.comparison comparison))
    (List.singleton_inj.mp same)

theorem comparisonSet_rereads (legible : (FieldCondition.comparisonSet list).Legible) :
    FieldCondition.ofJson field (FieldCondition.comparisonSet list).toJson =
      .ok (.comparisonSet list) := by
  obtain ⟨several, ascending, legible⟩ := legible
  match list, several with
  | first :: second :: rest, _ =>
    have told := isComparisonObject_member (List.cons_ne_nil _ _) legible
    have same := ofMember_member legible
    rw [FieldCondition.toJson, Named.Ascending.ofList_eq ascending]
    unfold FieldCondition.ofJson
    rw [if_pos told]
    exact congrArg (fun set => Except.ok (FieldCondition.comparisonSet set)) same

theorem nested_rereads {condition : Condition} (reread : ofJson condition.toJson = .ok condition)
    (told : condition.keys = [] ∨ ∃ key ∈ condition.keys, isComparisonKey key = false) :
    FieldCondition.ofJson field condition.toJson = .ok (.nested condition) := by
  obtain ⟨members, written, names⟩ := toJson_keys condition
  rw [written] at reread ⊢
  have unlike : isComparisonObject members = false := by
    rw [isComparisonObject_eq_false_iff, names]
    exact told.imp_left fun none => List.map_eq_nil_iff.mp (names.trans none)
  unfold FieldCondition.ofJson
  rw [unlike, if_neg Bool.false_ne_true]
  exact congrArg (Except.map FieldCondition.nested) reread

/-- A legible condition is read back from its JSON form. -/
theorem hereditary_rereads :
    Hereditary (fun condition => condition.Legible → ofJson condition.toJson = .ok condition)
      (fun condition => condition.Legible → ∀ field,
        FieldCondition.ofJson field condition.toJson = .ok condition) where
  and members reread legible := by
    have parts := ofItems_listToJson_iff.mpr fun member inside =>
      reread member inside (legibleMembers_iff.mp legible member inside)
    exact congrArg (Except.map Condition.and) parts
  or members reread legible := by
    have parts := ofItems_listToJson_iff.mpr fun member inside =>
      reread member inside (legibleMembers_iff.mp legible member inside)
    exact congrArg (Except.map Condition.or) parts
  not inner reread legible := by
    exact congrArg (Except.map Condition.not) (reread legible)
  fields entries reread legible := by
    obtain ⟨_, plain, legible⟩ := legible
    exact ofObject_entriesToJson plain fun entry inside =>
      reread entry inside (legibleEntries_iff.mp legible entry inside) entry.1
  comparison comparison legible field := comparison_rereads legible
  comparisons list legible field := by
    exact congrArg (Except.map FieldCondition.comparisons) (comparisonsOfItems_toJson legible)
  comparisonSet set legible field := comparisonSet_rereads legible
  nested condition reread legible field := nested_rereads (reread legible.1) legible.2

/-- A condition read from any value is read again, as it was, from its own JSON form. -/
theorem reread_of_read (value : Json) (condition : Condition) (canonical : value.Canonical)
    (read : ofJson value = .ok condition) : ofJson condition.toJson = .ok condition :=
  hereditary_rereads.condition condition (ofJson_legible canonical read)

/-- A combinator beside fields, a list entry with two comparisons, several comparisons in one
object, and below a field a name with an underscore beside another. -/
def mixedDocument : Json :=
  .object [
    ("_not", .object []),
    ("age", .array [.object [("_gt", .int 3), ("_within", .object [])], .object [("_lt", .int 9)]]),
    ("owner", .object [("_name", .object [("_eq", .string "Ada"), ("_in", .array [])]),
      ("born", .object [("_or", .array []), ("_self", .object [])])])]

def splitConjunction : Condition :=
  .and [.not .empty,
    .field "age" (.comparisons
      [⟨.gt, .int 3⟩, ⟨.custom "_within", .object []⟩, ⟨.lt, .int 9⟩]),
    .field "owner" (.nested (.fields [
      ("_name", .comparisonSet [⟨.eq, .string "Ada"⟩, ⟨.isIn, .array []⟩]),
      ("born", .nested (.and [.or [], .field "_self" (.nested .empty)]))]))]

theorem reread_splitConjunction :
    mixedDocument.Canonical ∧ ofJson mixedDocument = .ok splitConjunction ∧
      ofJson splitConjunction.toJson = .ok splitConjunction := by
  have canonical : mixedDocument.Canonical := by
    have same : mixedDocument.canonical = mixedDocument := by rfl
    exact same ▸ Json.canonical_canonical mixedDocument
  have read : ofJson mixedDocument = .ok splitConjunction := by rfl
  exact ⟨canonical, read, reread_of_read _ _ canonical read⟩

end Condition

end GridQuery
