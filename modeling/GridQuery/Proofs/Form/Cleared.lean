import GridQuery.Proofs.Form.Memberwise
import GridQuery.Proofs.Form.Unfilled
import GridQuery.Proofs.Form.Untouched

/-!
Cleared forms. What a cleared control holds is blank, or a pair with a blank operand. The builtin
hooks leave it alone and it makes no comparison, so a form that starts cleared selects every row.
-/

namespace GridQuery

/-- The leaf has no hook but a builtin one. -/
def FilterLeaf.BuiltinHook (leaf : FilterLeaf) : Prop :=
  ∀ hook, leaf.hook = some hook → ∃ name, Registry.builtins.hook? name = some hook

def FilterExpr.BuiltinHooks (expression : FilterExpr) : Prop :=
  ∀ leaf ∈ expression.leaves, leaf.BuiltinHook

def FilterSchema.BuiltinHooks (schema : FilterSchema) : Prop :=
  ∀ filter ∈ schema.filters, filter.expression.BuiltinHooks

namespace Registry

/-- All builtin hooks change texts. -/
theorem builtin_onText {name : String} {hook : Hook} (known : builtins.hook? name = some hook) :
    ∃ change, hook = onText change := by
  rw [hook?, builtins, Named.find?_ofList, Option.map_eq_some_iff] at known
  obtain ⟨entry, last, rfl⟩ := known
  have listed := (List.mem_filter.mp (List.mem_of_getLast? last)).1
  simp only [List.mem_cons, List.not_mem_nil, or_false] at listed
  rcases listed with rfl | rfl | rfl | rfl <;> exact ⟨_, rfl⟩

theorem onText_startValue (change : String → String) (control : Control) :
    onText change (control.startValue .empty) = .override none none := by
  cases control <;> rfl

end Registry

namespace FilterLeaf

variable {leaf : FilterLeaf}

theorem outcome_startValue (builtin : leaf.BuiltinHook) :
    leaf.outcome (leaf.control.startValue .empty) = .override none none := by
  unfold outcome
  cases hooked : leaf.hook with
  | none => rfl
  | some hook =>
    obtain ⟨name, known⟩ := builtin hook hooked
    obtain ⟨change, rfl⟩ := Registry.builtin_onText known
    exact Registry.onText_startValue change leaf.control

theorem comparison?_startValue (leaf : FilterLeaf) :
    leaf.comparison? (leaf.control.startValue .empty) = none := by
  cases control : leaf.control with
  | operatorChoice operators operand initial =>
    have choice : leaf.control.operators? = some operators := by rw [control]; rfl
    exact comparison?_operatorPair_blank choice .text
  | multiselect items initial => exact comparison?_blank .array
  | custom component props initial => exact comparison?_blank .null
  | text | number | date | dropdown | autocomplete => exact comparison?_blank .text

/-- A cleared leaf comes to nothing. -/
theorem condition?_startValue (builtin : leaf.BuiltinHook) :
    leaf.condition? (leaf.control.startValue .empty) = none := by
  rw [condition?, outcome_startValue builtin]
  exact congrArg (Option.map _) leaf.comparison?_startValue

end FilterLeaf

/-- There is no such condition. -/
theorem Condition.memberwise_false : Memberwise fun _ => False where
  and members present := by simpa using List.exists_mem_of_ne_nil members present
  or members present := by simpa using List.exists_mem_of_ne_nil members present
  not _ := Iff.rfl

namespace FormState

variable {good : FilterLeaf → Json → Prop} {mode : InitialMode} {expression : FilterExpr}

mutual

theorem eachLeaf_start_self : ∀ {expression : FilterExpr},
    (∀ leaf ∈ expression.leaves, good leaf (leaf.control.startValue mode)) →
      (start mode expression).EachLeaf good expression
  | .leaf contents, each => each contents (List.mem_singleton_self contents)
  | .and _, each => eachLeafOfList_start_self each
  | .or _, each => eachLeafOfList_start_self each
  | .not filter, each => by
    rw [start, EachLeaf]
    exact eachLeaf_start_self each

theorem eachLeafOfList_start_self : ∀ {filters : List FilterExpr},
    (∀ leaf ∈ FilterExpr.leavesOfList filters, good leaf (leaf.control.startValue mode)) →
      EachLeafOfList good (startList mode filters) filters
  | [], _ => trivial
  | filter :: rest, each => by
    obtain ⟨first, later⟩ := List.forall_mem_append.mp each
    exact ⟨eachLeaf_start_self first, eachLeafOfList_start_self later⟩

end

theorem yields_nothing (builtin : expression.BuiltinHooks) :
    (start .empty expression).EachLeaf (FilterLeaf.Yields fun _ => False) expression :=
  eachLeaf_start_self fun leaf listed condition made => by
    cases made.symm.trans (FilterLeaf.condition?_startValue (builtin leaf listed))

theorem condition?_start (builtin : expression.BuiltinHooks) :
    (start .empty expression).condition? expression = .ok none := by
  obtain ⟨result, compiled⟩ := (start_fits .empty expression).condition?_ok
  have nothing :=
    (memberwise_condition? Condition.memberwise_false compiled).mpr (yields_nothing builtin)
  cases result with
  | none => exact compiled
  | some condition => exact (nothing condition rfl).elim

end FormState

namespace FormStates

variable {schema : FilterSchema}

theorem activeConditions_start (distinct : (schema.filters.map Filter.id).Nodup)
    (builtin : schema.BuiltinHooks) : (start .empty schema).activeConditions schema = .ok [] := by
  have shaped : WellShaped schema (start .empty schema) :=
    start_wellShaped_iff.mpr (FilterSchema.repeatsFit_of_nodup distinct)
  obtain ⟨conditions, compiled⟩ := shaped.activeConditions_ok
  have nothing : ∀ condition ∈ conditions, False := by
    refine (memberwise_activeConditions Condition.memberwise_false compiled).mpr ?_
    intro id state filter member known
    obtain ⟨last, latest, rfl⟩ := mem_start.mp member
    rw [FilterSchema.last_eq_first distinct known latest]
    exact FormState.yields_nothing (builtin filter (List.mem_of_find?_eq_some known))
  rw [compiled, List.eq_nil_iff_forall_not_mem.mpr nothing]

/-- A cleared filter comes to nothing, and a cleared form to the condition of every row, whatever
the controls are and however the filters are nested. -/
theorem cleared_idle :
    (∀ expression : FilterExpr, expression.BuiltinHooks →
      (FormState.start .empty expression).condition? expression = .ok none) ∧
      ∀ schema : FilterSchema, (schema.filters.map Filter.id).Nodup → schema.BuiltinHooks →
        (start .empty schema).condition schema = .ok .empty := by
  refine ⟨fun expression => FormState.condition?_start, fun schema distinct builtin => ?_⟩
  rw [condition, activeConditions_start distinct builtin]
  rfl

/-- A trimmed text, and a negated choice without operators beside a control with an initial
value. -/
def clearedSchema : FilterSchema :=
  ⟨[], [⟨"name", "Name", .leaf { FilterLeaf.plain .like (.one "name") (.text none none) with
      hookName := some "trim", hook := some (Registry.onText Text.trim) }, none, false⟩,
    ⟨"tags", "Tags", .or [.not (.leaf (.plain .isIn (.one "tag")
        (.operatorChoice [] (.multiselect [] none) none))),
      .leaf (.plain .equals (.one "kind") (.custom "Kind" .null (some (.string "open"))))],
      none, false⟩]⟩

theorem clearedSchema_idle :
    (clearedSchema.filters.map Filter.id).Nodup ∧ clearedSchema.BuiltinHooks ∧
      (∀ filter ∈ clearedSchema.filters,
        (FormState.start .empty filter.expression).condition? filter.expression = .ok none) ∧
      (start .empty clearedSchema).condition clearedSchema = .ok .empty := by
  have distinct : (clearedSchema.filters.map Filter.id).Nodup := by decide
  have builtin : clearedSchema.BuiltinHooks := by
    refine List.forall_mem_cons.mpr ⟨?_, List.forall_mem_singleton.mpr ?_⟩
    · refine List.forall_mem_singleton.mpr ?_
      rintro hook ⟨⟩
      exact ⟨"trim", rfl⟩
    · exact List.forall_mem_cons.mpr ⟨nofun, List.forall_mem_singleton.mpr nofun⟩
  exact ⟨distinct, builtin, fun filter member => cleared_idle.1 _ (builtin filter member),
    cleared_idle.2 _ distinct builtin⟩

end FormStates

end GridQuery
