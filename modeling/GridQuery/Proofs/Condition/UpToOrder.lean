import GridQuery.Proofs.Condition.Ordered
import GridQuery.Proofs.Condition.Pairing
import GridQuery.Proofs.Json.Equality

/-!
Equality of conditions up to the order of conjuncts, disjuncts and comparisons, as the least
relation that pairs them off by some permutation. It is an equivalence, and comparing two conditions
by first-fit matching decides it.
-/

namespace GridQuery

/-- Same operator, and operands that differ at most in the signs of zeros. -/
def Comparison.Same (left right : Comparison) : Prop :=
  left.key = right.key ∧ left.operand.dropZeroSigns = right.operand.dropZeroSigns

theorem Comparison.equal_iff {left right : Comparison} :
    left.equal right = true ↔ left.Same right := by
  simp [equal, Same, Json.equal_iff]

theorem Comparison.same_equivalence : Equivalence Comparison.Same where
  refl _ := ⟨rfl, rfl⟩
  symm same := ⟨same.1.symm, same.2.symm⟩
  trans same same' := ⟨same.1.trans same'.1, same.2.trans same'.2⟩

/-- The comparisons of a list or of a set. -/
def FieldCondition.several? : FieldCondition → Option (List Comparison)
  | .comparisons list => some list
  | .comparisonSet set => some set
  | _ => none

mutual

/-- Equality up to order. -/
inductive Condition.Same : Condition → Condition → Prop
  | and {left right paired : List Condition} (pairs : List.Forall₂ Condition.Same left paired)
      (order : paired.Perm right) : Condition.Same (.and left) (.and right)
  | or {left right paired : List Condition} (pairs : List.Forall₂ Condition.Same left paired)
      (order : paired.Perm right) : Condition.Same (.or left) (.or right)
  | not {left right : Condition} (inner : Condition.Same left right) :
      Condition.Same left.not right.not
  | fields {left right : List (String × FieldCondition)}
      (names : Named.names left = Named.names right)
      (entries : List.Forall₂ FieldCondition.Same (left.map Prod.snd) (right.map Prod.snd)) :
      Condition.Same (.fields left) (.fields right)

/-- Comparisons of a field pair off whether they stand in a list or in a set. -/
inductive FieldCondition.Same : FieldCondition → FieldCondition → Prop
  | comparison {left right : Comparison} (same : left.Same right) :
      FieldCondition.Same (.comparison left) (.comparison right)
  | several {left right : FieldCondition} {lefts rights paired : List Comparison}
      (leftSeveral : left.several? = some lefts) (rightSeveral : right.several? = some rights)
      (pairs : List.Forall₂ Comparison.Same lefts paired) (order : paired.Perm rights) :
      FieldCondition.Same left right
  | nested {left right : Condition} (inner : Condition.Same left right) :
      FieldCondition.Same (.nested left) (.nested right)

end

namespace Condition

variable {left right : Condition} {members : List Condition}

theorem same_and_iff :
    Same (.and members) right ↔ ∃ others, right = .and others ∧ Paired Same members others := by
  constructor
  · intro same
    cases same with
    | and pairs order => exact ⟨_, rfl, _, pairs, order⟩
  · rintro ⟨others, rfl, paired, pairs, order⟩
    exact .and pairs order

theorem same_or_iff :
    Same (.or members) right ↔ ∃ others, right = .or others ∧ Paired Same members others := by
  constructor
  · intro same
    cases same with
    | or pairs order => exact ⟨_, rfl, _, pairs, order⟩
  · rintro ⟨others, rfl, paired, pairs, order⟩
    exact .or pairs order

theorem same_several_iff {field other : FieldCondition} {lefts : List Comparison}
    (several : field.several? = some lefts) :
    FieldCondition.Same field other ↔
      ∃ rights, other.several? = some rights ∧ Paired Comparison.Same lefts rights := by
  constructor
  · intro same
    cases same with
    | comparison => cases several
    | several leftSeveral rightSeveral pairs order =>
      rw [several] at leftSeveral
      cases leftSeveral
      exact ⟨_, rightSeveral, _, pairs, order⟩
    | nested inner => cases several
  · rintro ⟨rights, otherSeveral, paired, pairs, order⟩
    exact .several several otherSeveral pairs order

theorem same_comparison_iff {comparison : Comparison} {other : FieldCondition} :
    FieldCondition.Same (.comparison comparison) other ↔
      ∃ second, other = .comparison second ∧ comparison.Same second := by
  constructor
  · intro same
    cases same with
    | comparison same => exact ⟨_, rfl, same⟩
    | several leftSeveral => cases leftSeveral
  · rintro ⟨second, rfl, same⟩
    exact .comparison same

theorem same_nested_iff {inner : Condition} {other : FieldCondition} :
    FieldCondition.Same (.nested inner) other ↔
      ∃ second, other = .nested second ∧ Same inner second := by
  constructor
  · intro same
    cases same with
    | several leftSeveral => cases leftSeveral
    | nested inner => exact ⟨_, rfl, inner⟩
  · rintro ⟨second, rfl, same⟩
    exact .nested same

theorem same_not_iff {inner : Condition} :
    Same inner.not right ↔ ∃ second, right = .not second ∧ Same inner second := by
  constructor
  · intro same
    cases same with
    | not inner => exact ⟨_, rfl, inner⟩
  · rintro ⟨second, rfl, same⟩
    exact .not same

theorem same_fields_iff {entries : List (String × FieldCondition)} :
    Same (.fields entries) right ↔ ∃ others, right = .fields others ∧
      Named.names entries = Named.names others ∧
      List.Forall₂ FieldCondition.Same (entries.map Prod.snd) (others.map Prod.snd) := by
  constructor
  · intro same
    cases same with
    | fields names entries => exact ⟨_, rfl, names, entries⟩
  · rintro ⟨others, rfl, names, entries⟩
    exact .fields names entries

theorem several_refl {condition : FieldCondition} {list : List Comparison}
    (several : condition.several? = some list) : FieldCondition.Same condition condition :=
  (same_several_iff several).mpr ⟨list, several,
    Paired.refl fun comparison _ => Comparison.same_equivalence.refl comparison⟩

theorem hereditary_refl : Hereditary (fun condition => Same condition condition)
    (fun condition => FieldCondition.Same condition condition) where
  and members same := same_and_iff.mpr ⟨members, rfl, Paired.refl same⟩
  or members same := same_or_iff.mpr ⟨members, rfl, Paired.refl same⟩
  not inner same := .not same
  fields entries same := by
    apply Same.fields rfl
    rw [List.forall₂_map_left_iff, List.forall₂_map_right_iff]
    exact List.forall₂_same.mpr same
  comparison comparison := .comparison (Comparison.same_equivalence.refl comparison)
  comparisons list := several_refl rfl
  comparisonSet set := several_refl rfl
  nested condition same := .nested same

theorem several_symm {condition : FieldCondition} {list : List Comparison}
    (several : condition.several? = some list) :
    ∀ other, FieldCondition.Same condition other → FieldCondition.Same other condition := by
  intro other same
  obtain ⟨rights, otherSeveral, pairing⟩ := (same_several_iff several).mp same
  exact (same_several_iff otherSeveral).mpr ⟨list, several,
    pairing.symm fun _ _ _ => Comparison.same_equivalence.symm⟩

theorem hereditary_symm :
    Hereditary (fun condition => ∀ other, Same condition other → Same other condition)
      (fun condition => ∀ other, FieldCondition.Same condition other →
        FieldCondition.Same other condition) where
  and members symmetric := by
    intro other same
    obtain ⟨others, rfl, pairing⟩ := same_and_iff.mp same
    exact same_and_iff.mpr ⟨members, rfl, pairing.symm symmetric⟩
  or members symmetric := by
    intro other same
    obtain ⟨others, rfl, pairing⟩ := same_or_iff.mp same
    exact same_or_iff.mpr ⟨members, rfl, pairing.symm symmetric⟩
  not inner symmetric := by
    intro other same
    obtain ⟨second, rfl, inside⟩ := same_not_iff.mp same
    exact .not (symmetric second inside)
  fields entries symmetric := by
    intro other same
    obtain ⟨others, rfl, names, pairs⟩ := same_fields_iff.mp same
    exact .fields names.symm (forall₂_symm (List.forall_mem_map.mpr symmetric) pairs)
  comparison comparison := by
    intro other same
    obtain ⟨second, rfl, here⟩ := same_comparison_iff.mp same
    exact .comparison (Comparison.same_equivalence.symm here)
  comparisons list := several_symm rfl
  comparisonSet set := several_symm rfl
  nested condition symmetric := by
    intro other same
    obtain ⟨second, rfl, inside⟩ := same_nested_iff.mp same
    exact .nested (symmetric second inside)

theorem several_trans {condition : FieldCondition} {list : List Comparison}
    (several : condition.several? = some list) :
    ∀ other third, FieldCondition.Same condition other → FieldCondition.Same other third →
      FieldCondition.Same condition third := by
  intro other third same later
  obtain ⟨rights, otherSeveral, pairing⟩ := (same_several_iff several).mp same
  obtain ⟨thirds, thirdSeveral, pairing'⟩ := (same_several_iff otherSeveral).mp later
  exact (same_several_iff several).mpr ⟨thirds, thirdSeveral,
    pairing.trans (fun _ _ _ _ => Comparison.same_equivalence.trans) pairing'⟩

theorem hereditary_trans :
    Hereditary
      (fun condition => ∀ other third, Same condition other → Same other third →
        Same condition third)
      (fun condition => ∀ other third, FieldCondition.Same condition other →
        FieldCondition.Same other third → FieldCondition.Same condition third) where
  and members transitive := by
    intro other third same later
    obtain ⟨others, rfl, pairing⟩ := same_and_iff.mp same
    obtain ⟨thirds, rfl, pairing'⟩ := same_and_iff.mp later
    exact same_and_iff.mpr ⟨thirds, rfl, pairing.trans transitive pairing'⟩
  or members transitive := by
    intro other third same later
    obtain ⟨others, rfl, pairing⟩ := same_or_iff.mp same
    obtain ⟨thirds, rfl, pairing'⟩ := same_or_iff.mp later
    exact same_or_iff.mpr ⟨thirds, rfl, pairing.trans transitive pairing'⟩
  not inner transitive := by
    intro other third same later
    obtain ⟨second, rfl, here⟩ := same_not_iff.mp same
    obtain ⟨third, rfl, there⟩ := same_not_iff.mp later
    exact .not (transitive second third here there)
  fields entries transitive := by
    intro other third same later
    obtain ⟨others, rfl, names, pairs⟩ := same_fields_iff.mp same
    obtain ⟨thirds, rfl, names', pairs'⟩ := same_fields_iff.mp later
    exact .fields (names.trans names')
      (forall₂_trans (List.forall_mem_map.mpr transitive) pairs pairs')
  comparison comparison := by
    intro other third same later
    obtain ⟨second, rfl, here⟩ := same_comparison_iff.mp same
    obtain ⟨third, rfl, there⟩ := same_comparison_iff.mp later
    exact .comparison (Comparison.same_equivalence.trans here there)
  comparisons list := several_trans rfl
  comparisonSet set := several_trans rfl
  nested condition transitive := by
    intro other third same later
    obtain ⟨second, rfl, here⟩ := same_nested_iff.mp same
    obtain ⟨third, rfl, there⟩ := same_nested_iff.mp later
    exact .nested (transitive second third here there)

theorem same_equivalence : Equivalence Same where
  refl := hereditary_refl.condition
  symm same := hereditary_symm.condition _ _ same
  trans same later := hereditary_trans.condition _ _ _ same later

theorem sameList_eq_pairsOff (left right : List Comparison) :
    Comparison.sameList left right = pairsOff Comparison.equal left right := by
  induction left generalizing right with
  | nil => rfl
  | cons comparison rest ih =>
    simp only [Comparison.sameList, pairsOff, ih]
    cases removeFirst comparison.equal right <;> rfl

theorem sameMembers_eq_pairsOff (left right : List Condition) :
    sameMembers left right = pairsOff same left right := by
  induction left generalizing right with
  | nil => rfl
  | cons condition rest ih =>
    simp only [sameMembers, pairsOff, ih]
    cases removeFirst condition.same right <;> rfl

theorem sameList_iff {left right : List Comparison} :
    Comparison.sameList left right = true ↔ Paired Comparison.Same left right := by
  rw [sameList_eq_pairsOff, pairsOff_iff Comparison.same_equivalence]
  intros
  exact Comparison.equal_iff

theorem sameEntries_cons_right {entries others : List (String × FieldCondition)}
    {entry : String × FieldCondition} (fresh : ∀ other ∈ entries, entry.1 ≠ other.1) :
    FieldCondition.sameEntries entries (entry :: others) =
      FieldCondition.sameEntries entries others := by
  induction entries with
  | nil => rfl
  | cons first rest ih =>
    obtain ⟨name, condition⟩ := first
    obtain ⟨differs, fresh⟩ := List.forall_mem_cons.mp fresh
    obtain ⟨other, kept⟩ := entry
    simp only [FieldCondition.sameEntries, Named.find?, if_neg differs, ih fresh]

/-- Entries with the same names in order are compared one by one. -/
theorem sameEntries_iff {entries others : List (String × FieldCondition)}
    (ascending : Named.Ascending entries) (names : Named.names entries = Named.names others) :
    FieldCondition.sameEntries entries others = true ↔
      List.Forall₂ (fun first second => first.same second = true) (entries.map Prod.snd)
        (others.map Prod.snd) := by
  induction entries generalizing others with
  | nil =>
    obtain rfl : others = [] := by simpa [Named.names] using names.symm
    simp [FieldCondition.sameEntries]
  | cons entry rest ih =>
    obtain ⟨name, condition⟩ := entry
    cases others with
    | nil => cases names
    | cons other others =>
      obtain ⟨otherName, kept⟩ := other
      obtain ⟨below, ascending⟩ := List.pairwise_cons.mp ascending
      simp only [Named.names, List.map_cons, List.cons.injEq] at names
      obtain ⟨rfl, names⟩ := names
      have fresh : ∀ later ∈ rest, name ≠ later.1 := by
        intro later inside same
        exact String.lt_irrefl _ (same ▸ below later inside)
      rw [FieldCondition.sameEntries, sameEntries_cons_right fresh]
      simp [Named.find?, ih ascending names]

theorem names_subset_of_sameEntries {entries others : List (String × FieldCondition)}
    (same : FieldCondition.sameEntries entries others = true) :
    Named.names entries ⊆ Named.names others := by
  induction entries with
  | nil => simp [Named.names]
  | cons entry rest ih =>
    obtain ⟨name, condition⟩ := entry
    obtain ⟨here, later⟩ := Bool.and_eq_true_iff.mp same
    have present : name ∈ Named.names others := by
      cases found : Named.find? name others with
      | none => rw [found] at here; cases here
      | some other => exact List.mem_map_of_mem (Named.mem_of_find?_eq_some found)
    intro listed inside
    rcases List.mem_cons.mp inside with rfl | inside
    · exact present
    · exact ih later inside

theorem fields_same_iff {entries others : List (String × FieldCondition)}
    (ascending : Named.Ascending entries) (ascending' : Named.Ascending others) :
    (fields entries).same (fields others) = true ↔
      Named.names entries = Named.names others ∧
        List.Forall₂ (fun first second => first.same second = true) (entries.map Prod.snd)
          (others.map Prod.snd) := by
  rw [Condition.same, Bool.and_eq_true_iff, decide_eq_true_eq]
  constructor
  · rintro ⟨length, same⟩
    have names := ascending.names_eq ascending' length (names_subset_of_sameEntries same)
    exact ⟨names, (sameEntries_iff ascending names).mp same⟩
  · rintro ⟨names, pairs⟩
    have length : entries.length = others.length := by
      simpa [Named.names] using congrArg List.length names
    exact ⟨length, (sameEntries_iff ascending names).mpr pairs⟩

theorem entries_decide {entries others : List (String × FieldCondition)}
    (decides : ∀ entry ∈ entries, entry.2.Ordered → ∀ other : FieldCondition, other.Ordered →
      (entry.2.same other = true ↔ FieldCondition.Same entry.2 other))
    (ordered : ∀ entry ∈ entries, entry.2.Ordered) (ordered' : ∀ entry ∈ others, entry.2.Ordered) :
    List.Forall₂ (fun first second => first.same second = true) (entries.map Prod.snd)
        (others.map Prod.snd) ↔
      List.Forall₂ FieldCondition.Same (entries.map Prod.snd) (others.map Prod.snd) := by
  induction entries generalizing others with
  | nil => simp
  | cons entry rest ih =>
    cases others with
    | nil => simp
    | cons other others =>
      obtain ⟨here, later⟩ := List.forall_mem_cons.mp decides
      obtain ⟨first, ordered⟩ := List.forall_mem_cons.mp ordered
      obtain ⟨second, ordered'⟩ := List.forall_mem_cons.mp ordered'
      simp only [List.map_cons, List.forall₂_cons, here first other.2 second,
        ih later ordered ordered']

theorem sameMembers_iff {others : List Condition}
    (decides : ∀ member ∈ members, member.Ordered → ∀ other : Condition, other.Ordered →
      (member.same other = true ↔ Same member other))
    (ordered : OrderedMembers members) (ordered' : OrderedMembers others) :
    sameMembers members others = true ↔ Paired Same members others := by
  rw [sameMembers_eq_pairsOff]
  apply pairsOff_iff same_equivalence
  intro member inside other inside'
  exact decides member inside (orderedMembers_iff.mp ordered member inside) other
    (orderedMembers_iff.mp ordered' other inside')

theorem same_several {field other : FieldCondition} {lefts rights : List Comparison}
    (several : field.several? = some lefts) (several' : other.several? = some rights) :
    field.same other = Comparison.sameList lefts rights := by
  cases field <;> cases several <;> cases other <;> cases several' <;> rfl

theorem several_decides {field other : FieldCondition} {lefts : List Comparison}
    (several : field.several? = some lefts) :
    field.same other = true ↔ FieldCondition.Same field other := by
  rw [same_several_iff several]
  cases several' : other.several? with
  | some rights => simp [same_several several several', sameList_iff]
  | none =>
    cases field <;> cases several <;> cases other <;>
      simp_all [FieldCondition.same, FieldCondition.several?]

/-- Comparing conditions decides whether they are equal up to order. -/
theorem hereditary_decides :
    Hereditary
      (fun condition => condition.Ordered → ∀ other : Condition, other.Ordered →
        (condition.same other = true ↔ Same condition other))
      (fun condition => condition.Ordered → ∀ other : FieldCondition, other.Ordered →
        (condition.same other = true ↔ FieldCondition.Same condition other)) where
  and members decides := by
    intro ordered other ordered'
    rw [same_and_iff]
    cases other with
    | and others => simp [Condition.same, sameMembers_iff decides ordered ordered']
    | or others => simp [Condition.same]
    | not inner => simp [Condition.same]
    | fields entries => simp [Condition.same]
  or members decides := by
    intro ordered other ordered'
    rw [same_or_iff]
    cases other with
    | or others => simp [Condition.same, sameMembers_iff decides ordered ordered']
    | and others => simp [Condition.same]
    | not inner => simp [Condition.same]
    | fields entries => simp [Condition.same]
  not inner decides := by
    intro ordered other ordered'
    rw [same_not_iff]
    cases other with
    | not second => simp [Condition.same, decides ordered second ordered']
    | and others => simp [Condition.same]
    | or others => simp [Condition.same]
    | fields entries => simp [Condition.same]
  fields entries decides := by
    intro ordered other ordered'
    rw [same_fields_iff]
    cases other with
    | fields others =>
      rw [fields_same_iff ordered.1 ordered'.1]
      have entriesDecide := entries_decide decides (orderedEntries_iff.mp ordered.2)
        (orderedEntries_iff.mp ordered'.2)
      simp [entriesDecide]
    | and others => simp [Condition.same]
    | or others => simp [Condition.same]
    | not inner => simp [Condition.same]
  comparison comparison := by
    intro _ other _
    rw [same_comparison_iff]
    cases other <;> simp [FieldCondition.same, Comparison.equal_iff]
  comparisons list := fun _ _ _ => several_decides rfl
  comparisonSet set := fun _ _ _ => several_decides rfl
  nested condition decides := by
    intro ordered other ordered'
    rw [same_nested_iff]
    cases other with
    | nested second => simp [FieldCondition.same, decides ordered second ordered']
    | comparison comparison => simp [FieldCondition.same]
    | comparisons list => simp [FieldCondition.same]
    | comparisonSet set => simp [FieldCondition.same]

/-- Comparing conditions by first-fit matching decides equality up to order, and equality up to
order is an equivalence. -/
theorem same_iff_equal_up_to_order (left right : Condition) (ordered : left.Ordered)
    (ordered' : right.Ordered) :
    (left.same right = true ↔ Same left right) ∧ Equivalence Same :=
  ⟨hereditary_decides.condition left ordered right ordered', same_equivalence⟩

/-- A repeated disjunct beside a field with two comparisons in a list. -/
def listedComparisons : Condition :=
  .or [.not (.and []),
    .fields [("age", .comparisons [⟨.gt, .string "3"⟩, ⟨.lt, .string "9"⟩]),
      ("name", .nested (.and []))],
    .not (.and [])]

/-- The same disjuncts in another order, with the comparisons in a set. -/
def reorderedComparisons : Condition :=
  .or [.fields [("age", .comparisonSet [⟨.lt, .string "9"⟩, ⟨.gt, .string "3"⟩]),
      ("name", .nested (.and []))],
    .not (.and []), .not (.and [])]

theorem same_reorderedComparisons :
    listedComparisons.Ordered ∧ reorderedComparisons.Ordered ∧
      Same listedComparisons reorderedComparisons := by
  have read : Read.condition listedComparisons.toJson = .ok listedComparisons := rfl
  have ordered : listedComparisons.Ordered := read_ordered read
  have names : "age" < "name" := by decide
  have ordered' : reorderedComparisons.Ordered :=
    ⟨⟨List.pairwise_pair.mpr names, trivial, trivial, trivial⟩, trivial, trivial, trivial⟩
  have decided := (same_iff_equal_up_to_order _ _ ordered ordered').1
  exact ⟨ordered, ordered', decided.mp (by rfl)⟩

end Condition

end GridQuery
