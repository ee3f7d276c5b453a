import GridQuery.Proofs.Form.Meaning
import GridQuery.Proofs.Form.Redating
import GridQuery.Proofs.Form.Reload

/-!
The conditions of a form that is saved and loaded again. Its dates are rewritten, but no value
becomes blank by that and none stops being so. The same leaves are active, and the conditions agree
in all but the dates among their operands.
-/

namespace GridQuery

open Calendar (Instant)

/-- The members of both combinations come from the same children, and those of a child are related.
A child that adds none adds none on either side. -/
inductive SameMembers (related : FilterExpr → Condition → Condition → Prop) :
    List FilterExpr → List Condition → List Condition → Prop
  | nil (filters : List FilterExpr) : SameMembers related filters [] []
  | inactive (filter : FilterExpr) {filters : List FilterExpr} {befores afters : List Condition}
      (later : SameMembers related filters befores afters) :
      SameMembers related (filter :: filters) befores afters
  | active {filter : FilterExpr} {filters : List FilterExpr} {before after : Condition}
      {befores afters : List Condition} (first : related filter before after)
      (later : SameMembers related filters befores afters) :
      SameMembers related (filter :: filters) (before :: befores) (after :: afters)

/-- Both conditions are built from the same leaves of the expression in the same way, with the same
fields and operators. The rule relates the operands of a leaf. -/
inductive Condition.Recast (rule : FilterLeaf → Json → Json → Prop) :
    FilterExpr → Condition → Condition → Prop
  | leaf {contents : FilterLeaf} (key : OperatorKey) {before after : Json}
      (operands : rule contents before after) :
      Recast rule (.leaf contents) (contents.target.constrain (.comparison ⟨key, before⟩))
        (contents.target.constrain (.comparison ⟨key, after⟩))
  | and {filters : List FilterExpr} {befores afters : List Condition}
      (members : SameMembers (Recast rule) filters befores afters) :
      Recast rule (.and filters) (.and befores) (.and afters)
  | or {filters : List FilterExpr} {befores afters : List Condition}
      (members : SameMembers (Recast rule) filters befores afters) :
      Recast rule (.or filters) (.or befores) (.or afters)
  | not {filter : FilterExpr} {before after : Condition} (inner : Recast rule filter before after) :
      Recast rule filter.not before.not after.not

theorem SameMembers.eq_nil_iff {related : FilterExpr → Condition → Condition → Prop}
    {filters : List FilterExpr} {befores afters : List Condition}
    (members : SameMembers related filters befores afters) : befores = [] ↔ afters = [] := by
  induction members with
  | nil filters => exact Iff.rfl
  | inactive filter later ih => exact ih
  | active first later ih => exact ⟨nofun, nofun⟩

namespace Json

variable {value kept : Json}

/-- Rewriting dates empties no value and fills none. -/
theorem Redated.isBlank_eq (redated : value.Redated kept) : kept.isBlank = value.isBlank := by
  cases redated with
  | date read =>
    cases blank : value.isBlank with
    | true => cases (ofJson?_of_isBlank blank).symm.trans read
    | false => exact Instant.isBlank_text _
  | other single unread => rfl
  | array each => cases each <;> rfl

theorem getOrNull_of_not_object {name : String} (single : ∀ members, value ≠ .object members) :
    value.getOrNull name = .null := by
  cases value with
  | object members => exact absurd rfl (single members)
  | null | bool _ | number _ | string _ | array _ => rfl

/-- Rewriting dates makes no object. -/
theorem Redated.getOrNull_eq {name : String} (redated : value.Redated kept)
    (single : ∀ members, value ≠ .object members) : kept.getOrNull name = .null := by
  cases redated with
  | date read => rfl
  | other _ _ => exact getOrNull_of_not_object single
  | array each => rfl

end Json

namespace FilterLeaf

/-- A leaf without date paths keeps its operand; that of another leaf gets its dates rewritten. -/
structure RedatesOperand (schema : FilterSchema) (leaf : FilterLeaf) (operand kept : Json) :
    Prop where
  dateless : (∀ path ∈ leaf.target.paths, ¬ schema.IsDatePath path) → kept = operand
  dated : ∀ path ∈ leaf.target.paths, schema.IsDatePath path → operand.Redated kept

/-- The comparisons have one operator, and operands with the same dates. -/
def RedatesComparison (schema : FilterSchema) (leaf : FilterLeaf) (before after : Comparison) :
    Prop :=
  after.key = before.key ∧ leaf.RedatesOperand schema before.operand after.operand

variable {schema : FilterSchema} {leaf : FilterLeaf} {value kept : Json}

theorem chosenComparison?_eq (value : Json) : chosenComparison? value =
    (value.getOrNull "operator").text?.bind fun operator =>
      if operator.isEmpty || (value.getOrNull "value").isBlank then none
      else some ⟨.ofText operator, value.getOrNull "value"⟩ := by
  unfold chosenComparison?
  split
  next operator named =>
    have given : value.getOrNull "operator" = .string operator := by
      rw [Json.getOrNull, named]
      rfl
    rw [given]
    rfl
  next unnamed =>
    cases found : value.get? "operator" with
    | none =>
      rw [Json.getOrNull, found]
      rfl
    | some operator =>
      rw [Json.getOrNull, found]
      cases operator with
      | string text => exact absurd found (unnamed text)
      | null | bool _ | number _ | array _ | object _ => rfl

/-- A pair is compared by its operator and operand, whatever else it holds. -/
theorem chosenComparison?_operatorPair (value date : Json) :
    chosenComparison? (operatorPair (value.getOrNull "operator") date) =
      (value.getOrNull "operator").text?.bind fun operator =>
        if operator.isEmpty || date.isBlank then none else some ⟨.ofText operator, date⟩ := by
  rw [chosenComparison?_eq]
  rfl

theorem condition?_of_hookless (hookless : leaf.hook = none) :
    leaf.condition? value = (leaf.comparison? value).map fun comparison =>
      leaf.target.constrain (.comparison comparison) := by
  unfold condition? outcome
  rw [hookless]
  rfl

theorem not_pairs_of_plain (plain : leaf.control.operators? = none) : ¬ leaf.Pairs value := by
  intro pairs
  cases pairs with
  | pair control members =>
    rw [control] at plain
    cases plain

theorem not_object_of_not_pairs {operators : List Choice}
    (choice : leaf.control.operators? = some operators) (single : ¬ leaf.Pairs value)
    (members : List (String × Json)) : value ≠ .object members := by
  intro same
  cases control : leaf.control with
  | operatorChoice operators operand initial =>
    rw [same] at single
    exact single (.pair control members)
  | _ =>
    rw [control] at choice
    cases choice

/-- What a date part that is rewritten does to the comparison, for each kind of control and
value. -/
theorem comparison?_withDatePart {date : Json} {related : Comparison → Comparison → Prop}
    (redated : (leaf.datePart value).Redated date)
    (relates : ∀ key operand kept, operand.Redated kept → related ⟨key, operand⟩ ⟨key, kept⟩) :
    Option.Rel related (leaf.comparison? value)
      (leaf.comparison? (leaf.withDatePart value date)) := by
  cases choice : leaf.control.operators? with
  | none =>
    have single : ¬ leaf.Pairs value := not_pairs_of_plain choice
    rw [datePart_of_not_pairs single] at redated
    rw [withDatePart_of_not_pairs single, comparison?_of_plain choice, comparison?_of_plain choice,
      redated.isBlank_eq]
    split
    next blank => exact .none
    next filled => exact .some (relates _ _ _ redated)
  | some operators =>
    rw [comparison?_of_choice choice, comparison?_of_choice choice]
    by_cases pairs : leaf.Pairs value
    · rw [datePart_of_pairs pairs] at redated
      rw [withDatePart_of_pairs pairs, chosenComparison?_operatorPair, chosenComparison?_eq,
        redated.isBlank_eq]
      cases (value.getOrNull "operator").text? with
      | none => exact .none
      | some operator =>
        rw [Option.bind_some, Option.bind_some]
        split
        next unused => exact .none
        next used => exact .some (relates _ _ _ redated)
    · -- A choice of operators whose value is no pair compares nothing, before and after.
      have other := not_object_of_not_pairs choice pairs
      rw [datePart_of_not_pairs pairs] at redated
      rw [withDatePart_of_not_pairs pairs, chosenComparison?_eq, chosenComparison?_eq,
        Json.getOrNull_of_not_object other, redated.getOrNull_eq other]
      exact .none

theorem comparison?_redated (redates : leaf.Redates schema value kept) :
    Option.Rel (leaf.RedatesComparison schema) (leaf.comparison? value)
      (leaf.comparison? kept) := by
  by_cases dated : ∃ path ∈ leaf.target.paths, schema.IsDatePath path
  · obtain ⟨path, offered, isDate⟩ := dated
    obtain ⟨date, redated, same⟩ := redates.dated offered isDate
    rw [same]
    apply comparison?_withDatePart redated
    intro key operand kept rewritten
    refine ⟨rfl, fun dateless => ?_, fun _ _ _ => rewritten⟩
    exact absurd isDate (dateless path offered)
  · have dateless : ∀ path ∈ leaf.target.paths, ¬ schema.IsDatePath path :=
      fun path offered isDate => dated ⟨path, offered, isDate⟩
    rw [redates.dateless dateless]
    cases leaf.comparison? value with
    | none => exact .none
    | some comparison =>
      refine .some ⟨rfl, fun _ => rfl, fun path offered isDate => ?_⟩
      exact absurd isDate (dateless path offered)

theorem condition?_recast (hookless : leaf.hook = none)
    (redates : leaf.Redates schema value kept) :
    Option.Rel (Condition.Recast (RedatesOperand schema) (.leaf leaf)) (leaf.condition? value)
      (leaf.condition? kept) := by
  rw [condition?_of_hookless hookless, condition?_of_hookless hookless]
  have same := comparison?_redated redates
  generalize leaf.comparison? value = before at same
  generalize leaf.comparison? kept = after at same
  cases same with
  | none => exact .none
  | @some before after same =>
    obtain ⟨key, before⟩ := before
    obtain ⟨key', after⟩ := after
    obtain ⟨rfl, operands⟩ := same
    exact .some (.leaf _ operands)

end FilterLeaf

/-- No leaf has a hook. -/
def FilterExpr.Hookless (expression : FilterExpr) : Prop :=
  ∀ leaf ∈ expression.leaves, leaf.hook = none

def FilterSchema.Hookless (schema : FilterSchema) : Prop :=
  ∀ filter ∈ schema.filters, filter.expression.Hookless

namespace FormState

/-- Both states have a condition or neither, and the conditions agree in all but operands, which the
rule relates. -/
def Recasts (rule : FilterLeaf → Json → Json → Prop) (state : FormState) (expression : FilterExpr)
    (kept : FormState) : Prop :=
  ∃ before after, state.condition? expression = .ok before ∧
    kept.condition? expression = .ok after ∧
    Option.Rel (Condition.Recast rule expression) before after

variable {rule : FilterLeaf → Json → Json → Prop} {schema : FilterSchema}
  {expression : FilterExpr} {state kept : FormState} {children results : List FormState}
  {filters : List FilterExpr}

theorem folded_recasts (folded : FoldedChildren (fun child filter result =>
      filter.Hookless → child.Recasts rule filter result) children filters results)
    (hookless : ∀ leaf ∈ FilterExpr.leavesOfList filters, leaf.hook = none) (index : Nat) :
    ∃ befores afters, foldChildren conditionVisitor index children filters = .ok befores ∧
      foldChildren conditionVisitor index results filters = .ok afters ∧
      SameMembers (Condition.Recast rule) filters (befores.filterMap id) (afters.filterMap id) := by
  induction folded generalizing index with
  | nil filters => exact ⟨[], [], rfl, rfl, .nil filters⟩
  | @cons child filter result rest others results first later ih =>
    obtain ⟨free, frees⟩ := List.forall_mem_append.mp hookless
    obtain ⟨before, after, old, new, same⟩ := first free
    obtain ⟨befores, afters, olds, news, members⟩ := ih frees (index + 1)
    refine ⟨before :: befores, after :: afters, ?_, ?_, ?_⟩
    · exact bind_eq_ok.mpr ⟨before, old, bind_eq_ok.mpr ⟨befores, olds, rfl⟩⟩
    · exact bind_eq_ok.mpr ⟨after, new, bind_eq_ok.mpr ⟨afters, news, rfl⟩⟩
    · cases same with
      | none => exact .inactive filter members
      | some same => exact .active same members

/-- A combination has a condition on both sides or on neither. -/
theorem combine?_recast {combine : List Condition → Condition}
    {befores afters : List (Option Condition)}
    (parent : ∀ {befores afters}, SameMembers (Condition.Recast rule) filters befores afters →
      Condition.Recast rule expression (combine befores) (combine afters))
    (members : SameMembers (Condition.Recast rule) filters (befores.filterMap id)
      (afters.filterMap id)) :
    Option.Rel (Condition.Recast rule expression) (combine? combine befores)
      (combine? combine afters) := by
  unfold combine?
  generalize befores.filterMap id = olds at members
  generalize afters.filterMap id = news at members
  cases olds with
  | nil =>
    rw [members.eq_nil_iff.mp rfl]
    exact .none
  | cons old olds =>
    cases news with
    | nil => cases members.eq_nil_iff.mpr rfl
    | cons new news => exact .some (parent members)

/-- Rewriting the dates of a state recasts its condition: one case for each kind of node. -/
theorem Follows.recasts (follows : state.Follows (FilterLeaf.Redates schema) expression kept) :
    expression.Hookless → state.Recasts (FilterLeaf.RedatesOperand schema) expression kept := by
  refine follows.induct ?leaf ?and ?or ?not
  case leaf =>
    intro contents value kept redates hookless
    exact ⟨_, _, rfl, rfl,
      FilterLeaf.condition?_recast (hookless contents (List.mem_singleton_self contents)) redates⟩
  case and =>
    intro children filters results folded hookless
    obtain ⟨befores, afters, olds, news, members⟩ := folded_recasts folded hookless 0
    exact ⟨_, _, bind_eq_ok.mpr ⟨befores, olds, rfl⟩, bind_eq_ok.mpr ⟨afters, news, rfl⟩,
      combine?_recast .and members⟩
  case or =>
    intro children filters results folded hookless
    obtain ⟨befores, afters, olds, news, members⟩ := folded_recasts folded hookless 0
    exact ⟨_, _, bind_eq_ok.mpr ⟨befores, olds, rfl⟩, bind_eq_ok.mpr ⟨afters, news, rfl⟩,
      combine?_recast .or members⟩
  case not =>
    intro child filter result recasts hookless
    obtain ⟨before, after, old, new, same⟩ := recasts hookless
    refine ⟨_, _, bind_eq_ok.mpr ⟨before, old, rfl⟩, bind_eq_ok.mpr ⟨after, new, rfl⟩, ?_⟩
    cases same with
    | none => exact .none
    | some same => exact .some (.not same)

end FormState

namespace FormStates

variable {schema : FilterSchema} {states kept reloaded : FormStates} {saved : Json}

/-- The id stays, and where its filter is known, the condition does but for the rewritten dates. -/
def EntryRecasts (schema : FilterSchema) (entry result : String × FormState) : Prop :=
  result.1 = entry.1 ∧ ∀ filter, schema.filter? entry.1 = some filter →
    entry.2.Recasts (FilterLeaf.RedatesOperand schema) filter.expression result.2

theorem Follows.recasts (follows : states.Follows schema (FilterLeaf.Redates schema) kept)
    (hookless : schema.Hookless) : List.Forall₂ (EntryRecasts schema) states kept := by
  refine List.Forall₂.imp ?_ follows
  intro entry result changed
  obtain ⟨id, state⟩ := entry
  refine ⟨changed.1, fun filter known => ?_⟩
  obtain ⟨kept, follows, same⟩ := (entryFollows_known known).mp changed
  rw [← same]
  exact follows.recasts (hookless filter (List.mem_of_find?_eq_some known))

/-- What is loaded after saving is what the dates were rewritten to for saving. -/
theorem follows_of_reloads (canonical : states.Canonical) (saves : states.save schema = .ok saved)
    (loads : load schema saved = .ok reloaded) :
    states.Follows schema (FilterLeaf.Redates schema) reloaded := by
  obtain ⟨kept, normal, written⟩ := save_eq_ok.mp saves
  rw [← written, load_toJson] at loads
  rw [reloaded_eq canonical normal loads]
  exact redates_of_normalizes normal

/-- Saving and loading keep the ids and which filters are active. The conditions keep their shape,
fields and operators; of the operands, only dates at leaves with a date path are rewritten. -/
theorem reloaded_recasts (schema : FilterSchema) (states reloaded : FormStates) (saved : Json)
    (hookless : schema.Hookless) (canonical : states.Canonical)
    (saves : states.save schema = .ok saved) (loads : load schema saved = .ok reloaded) :
    List.Forall₂ (EntryRecasts schema) states reloaded :=
  (follows_of_reloads canonical saves loads).recasts hookless

/-- A choice of days, one of them unset, a day left out, and an entry without a filter. -/
def severalDays : FormStates :=
  [("due", .leaf (operatorPair (.string "_in")
      (.array [.int 86400000, .array [.string "", .string "2024-06-01"]]))),
    ("gone", .leaf (.string "2024-06-01")),
    ("window", .and [.leaf (.string ""),
      .not (.leaf (.array [.string "2024-06-01T09:00:00+02:00", .null]))])]

def severalDaysReloaded : FormStates :=
  [("due", .leaf (operatorPair (.string "_in") (.array [.string "1970-01-02T00:00:00.000Z",
      .array [.string "", .string "2024-06-01T00:00:00.000Z"]]))),
    ("gone", .leaf (.string "2024-06-01")),
    ("window", .and [.leaf (.string ""),
      .not (.leaf (.array [.string "2024-06-01T07:00:00.000Z", .null]))])]

theorem severalDays_recast :
    appointmentSchema.Hookless ∧ severalDays.Canonical ∧
      severalDays.save appointmentSchema = .ok severalDaysReloaded.toJson ∧
      load appointmentSchema severalDaysReloaded.toJson = .ok severalDaysReloaded ∧
      List.Forall₂ (EntryRecasts appointmentSchema) severalDays severalDaysReloaded := by
  have hookless : appointmentSchema.Hookless := by
    refine List.forall_mem_cons.mpr ⟨?_, List.forall_mem_singleton.mpr ?_⟩
    · exact List.forall_mem_singleton.mpr rfl
    · exact List.forall_mem_cons.mpr ⟨rfl, List.forall_mem_singleton.mpr rfl⟩
  have canonical : severalDays.Canonical := by
    refine List.forall_mem_cons.mpr ⟨?_, List.forall_mem_cons.mpr ⟨trivial,
      List.forall_mem_singleton.mpr ?_⟩⟩
    · exact FilterLeaf.operatorPair_canonical trivial
        ⟨trivial, ⟨trivial, trivial, trivial⟩, trivial⟩
    · exact ⟨trivial, ⟨trivial, trivial, trivial⟩, trivial⟩
  refine ⟨hookless, canonical, rfl, rfl, ?_⟩
  exact reloaded_recasts appointmentSchema severalDays severalDaysReloaded
    severalDaysReloaded.toJson hookless canonical rfl rfl

end FormStates

end GridQuery
