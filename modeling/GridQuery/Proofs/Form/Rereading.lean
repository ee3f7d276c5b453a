import GridQuery.Proofs.Condition.Legible
import GridQuery.Proofs.Form.Memberwise
import GridQuery.Proofs.Form.Unfilled

/-!
Compiled conditions are read back from their JSON form. Reading guesses from the underscores of keys
what an object is, so it takes back what a leaf comes to exactly if no segment of the leaf's paths
looks like a combinator or a comparison, and the operator that is chosen does look like one.
-/

namespace GridQuery

/-- No combinator begins with another character than an underscore, so such a key names a field. -/
theorem namesField_iff {key : String} :
    key.toList.head? ≠ some '_' ↔ isCombinator key = false ∧ isComparisonKey key = false := by
  cases combinator : isCombinator key with
  | false => simp [isComparisonKey, combinator]
  | true =>
    refine iff_of_false (not_not_intro ?_) fun plain => Bool.noConfusion plain.1
    simp only [isCombinator, Bool.or_eq_true, decide_eq_true_eq] at combinator
    obtain (rfl | rfl) | rfl := combinator <;> decide

/-- Nested one in the other, the segments are names of fields. The outermost is not taken for a
comparison, whatever it begins with. -/
def Path.NamesFields (path : Path) : Prop :=
  isCombinator path.first = false ∧ ∀ segment ∈ path.rest, segment.toList.head? ≠ some '_'

namespace Condition

/-- Read as a condition, the JSON form of the condition gives it again. -/
def Rereads (condition : Condition) : Prop :=
  ofJson condition.toJson = .ok condition

variable {members : List Condition} {condition : Condition} {name : String}

theorem rereads_and_iff : (Condition.and members).Rereads ↔ ∀ member ∈ members, member.Rereads := by
  change (ofItems (listToJson members)).map Condition.and = .ok (.and members) ↔ _
  simp [map_eq_ok, ofItems_listToJson_iff, Rereads]

theorem rereads_or_iff : (Condition.or members).Rereads ↔ ∀ member ∈ members, member.Rereads := by
  change (ofItems (listToJson members)).map Condition.or = .ok (.or members) ↔ _
  simp [map_eq_ok, ofItems_listToJson_iff, Rereads]

theorem rereads_not_iff : condition.not.Rereads ↔ condition.Rereads := by
  change (ofJson condition.toJson).map Condition.not = .ok condition.not ↔ _
  simp [map_eq_ok, Rereads]

theorem memberwise_rereads : Memberwise Rereads where
  and _ _ := rereads_and_iff
  or _ _ := rereads_or_iff
  not _ := rereads_not_iff

theorem rereads_field_iff {inner : FieldCondition} : (field name inner).Rereads ↔
    isCombinator name = false ∧ FieldCondition.ofJson name inner.toJson = .ok inner := by
  constructor
  · intro read
    rcases ofMember_eq_ok read with ⟨_, _, other | other⟩ | ⟨_, _, other⟩ | ⟨plain, _, inside, same⟩
    · cases other
    · cases other
    · cases other
    · cases same
      exact ⟨plain, inside⟩
  · rintro ⟨plain, inside⟩
    exact ofObject_entriesToJson (List.forall_mem_singleton.mpr plain)
      (List.forall_mem_singleton.mpr inside)

theorem reads_nested_iff :
    FieldCondition.ofJson name condition.toJson = .ok (.nested condition) ↔
      condition.Rereads ∧
        (condition.keys = [] ∨ ∃ key ∈ condition.keys, isComparisonKey key = false) := by
  refine ⟨fun read => ?_, fun reread => nested_rereads reread.1 reread.2⟩
  obtain ⟨members, written, names⟩ := toJson_keys condition
  rw [Rereads, written]
  rw [written] at read
  unfold FieldCondition.ofJson at read
  split at read
  next => split at read <;> cases read
  next unlike =>
    obtain ⟨inner, inside, same⟩ := map_eq_ok.mp read
    cases same
    have told := isComparisonObject_eq_false_iff.mp (Bool.eq_false_iff.mpr unlike)
    rw [names] at told
    exact ⟨inside, told.imp_left fun none => by rw [← names, none, Named.names, List.map_nil]⟩

theorem reads_comparison_iff {comparison : Comparison} :
    FieldCondition.ofJson name comparison.toJson = .ok (.comparison comparison) ↔
      comparison.Legible := by
  refine ⟨fun read => ?_, comparison_rereads⟩
  unfold Comparison.toJson FieldCondition.ofJson at read
  split at read
  next told =>
    have same := FieldCondition.comparison.inj (Except.ok.inj read)
    obtain ⟨_, keys⟩ := Bool.and_eq_true_iff.mp told
    have key := List.all_eq_true.mp keys comparison.member (List.mem_singleton_self _)
    exact same ▸ GridQuery.ofMember_legible key
  next =>
    obtain ⟨_, _, other⟩ := map_eq_ok.mp read
    cases other

theorem keys_nestSegments (inner : FieldCondition) (first : String) (rest : List String) :
    (nestSegments inner first rest).keys = [first] := by
  cases rest <;> rfl

theorem rereads_nest_iff {comparison : Comparison} {path : String} :
    (nest path (.comparison comparison)).Rereads ↔
      (Path.ofString path).NamesFields ∧ comparison.Legible := by
  unfold nest Path.NamesFields
  generalize (Path.ofString path).first = first
  induction (Path.ofString path).rest generalizing first with
  | nil =>
    rw [nestSegments, rereads_field_iff, FieldCondition.toJson, reads_comparison_iff]
    simp
  | cons second rest ih =>
    have told : ([second] = [] ∨ ∃ key ∈ [second], isComparisonKey key = false) ↔
        isComparisonKey second = false := by simp
    rw [nestSegments, rereads_field_iff, FieldCondition.toJson, reads_nested_iff, ih,
      keys_nestSegments, told, List.forall_mem_cons, namesField_iff]
    tauto

theorem rereads_constrain_iff {comparison : Comparison} {target : FieldTarget} :
    (target.constrain (.comparison comparison)).Rereads ↔
      ∀ path ∈ target.paths, (Path.ofString path).NamesFields ∧ comparison.Legible := by
  cases target with
  | one path => simp [FieldTarget.constrain, FieldTarget.paths, rereads_nest_iff]
  | allOf paths =>
    simp [FieldTarget.constrain, FieldTarget.paths, rereads_and_iff, rereads_nest_iff]
  | anyOf paths => simp [FieldTarget.constrain, FieldTarget.paths, rereads_or_iff, rereads_nest_iff]

end Condition

theorem FilterOperator.legible (operator : FilterOperator) (operand : Json) :
    (Comparison.mk operator.key operand).Legible := by
  have key : isComparisonKey operator.key.text = true := by cases operator <;> decide
  have told : OperatorKey.ofText operator.key.text = operator.key := by cases operator <;> decide
  exact ⟨key, told⟩

namespace FilterLeaf

/-- If the leaf has a choice of operators, the one chosen in the value is taken for the key of a
comparison. -/
def NamesComparison (leaf : FilterLeaf) (value : Json) : Prop :=
  leaf.control.operators? ≠ none →
    ∀ operator, value.get? "operator" = some (.string operator) → isComparisonKey operator = true

variable {leaf : FilterLeaf} {value : Json}

theorem Compares.legible_iff {key : OperatorKey} {operand : Json}
    (compares : leaf.Compares value key operand) :
    (Comparison.mk key operand).Legible ↔ leaf.NamesComparison value := by
  cases compares with
  | value plain filled =>
    exact iff_of_true (FilterOperator.legible _ _) fun choice => absurd plain choice
  | chosen choice named chosen given filled =>
    simp [Comparison.Legible, OperatorKey.text_ofText, NamesComparison, choice, Json.get?, named]

/-- What a leaf without a hook comes to is read back exactly if it is written in telling keys. -/
theorem yields_rereads_iff (hookless : leaf.hook = none) :
    leaf.Yields Condition.Rereads value ↔
      (leaf.Active value → ∀ path ∈ leaf.target.paths,
        (Path.ofString path).NamesFields ∧ leaf.NamesComparison value) := by
  rw [Yields, condition?_of_hookless hookless, active_iff_of_hookless hookless]
  cases made : leaf.comparison? value with
  | none => simp
  | some comparison =>
    have legible := (comparison?_eq_some_iff.mp made).legible_iff
    simp [Condition.rereads_constrain_iff, ← legible]

end FilterLeaf

namespace FormState

/-- A compiled condition is read back from its JSON form exactly if every active leaf names fields
and, where an operator is chosen, a comparison. What it compares with does not matter. -/
theorem condition_rereads_iff (expression : FilterExpr) (state : FormState) (condition : Condition)
    (hookless : expression.Hookless)
    (compiled : state.condition? expression = .ok (some condition)) :
    Condition.ofJson condition.toJson = .ok condition ↔
      ∀ pair ∈ state.pairedLeaves expression, pair.1.Active pair.2 → ∀ path ∈ pair.1.target.paths,
        (Path.ofString path).NamesFields ∧ pair.1.NamesComparison pair.2 := by
  have free : state.EachLeaf (fun leaf _ => leaf.hook = none) expression :=
    eachLeaf_of_leaves fun leaf listed _ => hookless leaf listed
  have leaves := memberwise_condition? Condition.memberwise_rereads compiled
  rw [eachLeaf_iff] at free leaves
  simp only [Option.mem_some_iff, forall_eq'] at leaves
  change condition.Rereads ↔ _
  rw [leaves]
  exact forall₂_congr fun pair member => FilterLeaf.yields_rereads_iff (free pair member)

def areaLeaf : FilterLeaf :=
  .plain .equals (.anyOf ["_area", "home.area"])
    (.operatorChoice [⟨"within", .string "_within"⟩] (.text none none) none)

def tagsLeaf : FilterLeaf :=
  .plain .isIn (.one "owner.tags") (.multiselect [] none)

/-- Its field would be taken for a comparison below the owner. -/
def ownerIdLeaf : FilterLeaf :=
  .plain .equals (.one "owner._id") (.text none none)

def underscoredLeaves : FilterExpr :=
  .or [.leaf areaLeaf, .not (.and [.leaf tagsLeaf, .leaf ownerIdLeaf])]

/-- A shape whose own keys are those of combinators and comparisons. -/
def boxShape : Json :=
  .object [("_and", .array []), ("_eq", .null), ("kind", .string "box")]

/-- The leaf that would be misread is left alone. -/
def areaGiven : FormState :=
  .or [.leaf (operatorPair (.string "_within") boxShape),
    .not (.and [.leaf (.array [.string "new"]), .leaf (.string "")])]

def eitherArea : Condition :=
  .or [.or [.nest "_area" (.comparison ⟨.custom "_within", boxShape⟩),
      .nest "home.area" (.comparison ⟨.custom "_within", boxShape⟩)],
    .not (.and [.nest "owner.tags" (.comparison ⟨.isIn, .array [.string "new"]⟩)])]

theorem eitherArea_rereads :
    underscoredLeaves.Hookless ∧
      areaGiven.condition? underscoredLeaves = .ok (some eitherArea) ∧
      Condition.ofJson eitherArea.toJson = .ok eitherArea := by
  have hookless : underscoredLeaves.Hookless := by
    simp [FilterExpr.Hookless, underscoredLeaves, FilterExpr.leaves, FilterExpr.leavesOfList,
      areaLeaf, tagsLeaf, ownerIdLeaf, FilterLeaf.plain]
  have compiled : areaGiven.condition? underscoredLeaves = .ok (some eitherArea) := rfl
  have listed : areaGiven.pairedLeaves underscoredLeaves =
      [(areaLeaf, operatorPair (.string "_within") boxShape),
        (tagsLeaf, .array [.string "new"]), (ownerIdLeaf, .string "")] := rfl
  have within : areaLeaf.NamesComparison (operatorPair (.string "_within") boxShape) := by
    intro _ operator named
    cases named
    decide
  have idle : ¬ ownerIdLeaf.Active (.string "") := by
    rw [FilterLeaf.active_iff_of_hookless rfl]
    rintro ⟨_, made⟩
    cases made
  refine ⟨hookless, compiled, (condition_rereads_iff _ _ _ hookless compiled).mpr ?_⟩
  rw [listed, List.forall_mem_cons, List.forall_mem_cons, List.forall_mem_singleton]
  refine ⟨fun _ => List.forall_mem_cons.mpr ⟨⟨⟨by decide, by decide⟩, within⟩,
    List.forall_mem_singleton.mpr ⟨⟨by decide, by decide⟩, within⟩⟩, fun _ =>
    List.forall_mem_singleton.mpr ⟨⟨by decide, by decide⟩, fun choice => absurd rfl choice⟩,
    fun active => absurd active idle⟩

end FormState

end GridQuery
