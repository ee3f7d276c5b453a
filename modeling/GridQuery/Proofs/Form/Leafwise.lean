import GridQuery.Proofs.Form.Edits
import GridQuery.Proofs.Form.State
import Mathlib.Data.List.Forall2

/-!
States that are changed leaf by leaf. Normalizing dates is such a change: it succeeds exactly where
the shapes agree and every leaf can be changed, and so does one change after another.
-/

namespace GridQuery

variable {children results : List FormState} {filters : List FilterExpr}

namespace FormState

section

variable {good : FilterLeaf → Json → Prop}

theorem eachLeafOfList_of_folded {α : Type} {results : List α} (folded : FoldedChildren
      (fun child filter _ => child.EachLeaf good filter) children filters results) :
    EachLeafOfList good children filters := by
  induction folded with
  | nil filters => trivial
  | cons first later ih => exact ⟨first, ih⟩

theorem exists_folded_of_eachLeaf {belongs : FormState → FilterExpr → FormState → Prop}
    {units : List Unit} (folded : FoldedChildren (fun child filter _ =>
      child.EachLeaf good filter → ∃ kept, belongs child filter kept) children filters units)
    (leaves : EachLeafOfList good children filters) :
    ∃ results, FoldedChildren belongs children filters results := by
  induction folded with
  | nil filters => exact ⟨[], .nil filters⟩
  | cons first later ih =>
    obtain ⟨result, here⟩ := first leaves.1
    obtain ⟨results, there⟩ := ih leaves.2
    exact ⟨result :: results, .cons here there⟩

end

/-- Both states are one tree in the shape of the expression, and at every leaf the rule relates the
value to the one it becomes. -/
inductive Follows (rule : FilterLeaf → Json → Json → Prop) :
    FormState → FilterExpr → FormState → Prop
  | leaf {contents : FilterLeaf} {value kept : Json} (changed : rule contents value kept) :
      Follows rule (.leaf value) (.leaf contents) (.leaf kept)
  | and {children results : List FormState} {filters : List FilterExpr}
      (each : FoldedChildren (Follows rule) children filters results) :
      Follows rule (.and children) (.and filters) (.and results)
  | or {children results : List FormState} {filters : List FilterExpr}
      (each : FoldedChildren (Follows rule) children filters results) :
      Follows rule (.or children) (.or filters) (.or results)
  | not {child result : FormState} {filter : FilterExpr}
      (inner : Follows rule child filter result) : Follows rule child.not filter.not result.not

variable {rule first second : FilterLeaf → Json → Json → Prop} {state middle kept : FormState}
  {expression : FilterExpr}

namespace Follows

/-- Induction in which the children of a node have the property together. -/
@[elab_as_elim]
theorem induct {motive : FormState → FilterExpr → FormState → Prop}
    (leaf : ∀ contents value kept, rule contents value kept →
      motive (.leaf value) (.leaf contents) (.leaf kept))
    (and : ∀ children filters results, FoldedChildren motive children filters results →
      motive (.and children) (.and filters) (.and results))
    (or : ∀ children filters results, FoldedChildren motive children filters results →
      motive (.or children) (.or filters) (.or results))
    (not : ∀ child filter result, motive child filter result →
      motive child.not filter.not result.not)
    (follows : state.Follows rule expression kept) : motive state expression kept :=
  @Follows.rec rule (fun state expression kept _ => motive state expression kept)
    (fun children filters results _ => FoldedChildren motive children filters results)
    (fun changed => leaf _ _ _ changed) (fun _ each => and _ _ _ each) (fun _ each => or _ _ _ each)
    (fun _ inner => not _ _ _ inner) .nil (fun _ _ here later => .cons here later) _ _ _ follows

theorem imp {rule' : FilterLeaf → Json → Json → Prop}
    (weaker : ∀ contents value kept, rule contents value kept → rule' contents value kept)
    (follows : state.Follows rule expression kept) : state.Follows rule' expression kept := by
  refine induct ?leaf ?and ?or ?not follows
  case leaf => exact fun contents value kept changed => .leaf (weaker contents value kept changed)
  case and => exact fun _ _ _ each => .and each
  case or => exact fun _ _ _ each => .or each
  case not => exact fun _ _ _ inner => .not inner

theorem trans (before : state.Follows first expression middle) :
    ∀ kept, middle.Follows second expression kept →
      state.Follows (fun contents value kept =>
        ∃ middle, first contents value middle ∧ second contents middle kept) expression kept := by
  refine induct ?leaf ?and ?or ?not before
  case leaf =>
    intro contents value middle changed kept after
    cases after with
    | leaf changed' => exact .leaf ⟨middle, changed, changed'⟩
  case and =>
    intro children filters middles each kept after
    cases after with
    | and each' =>
      refine .and ((FoldedChildren.chain_iff.mpr ⟨middles, each, each'⟩).imp ?_)
      rintro child filter result ⟨middle, before, after⟩
      exact before result after
  case or =>
    intro children filters middles each kept after
    cases after with
    | or each' =>
      refine .or ((FoldedChildren.chain_iff.mpr ⟨middles, each, each'⟩).imp ?_)
      rintro child filter result ⟨middle, before, after⟩
      exact before result after
  case not =>
    intro child filter middle inner kept after
    cases after with
    | not inner' => exact .not (inner _ inner')

/-- A change whose rule is one rule after another is one change after another. -/
theorem exists_middle (follows : state.Follows (fun contents value kept =>
      ∃ middle, first contents value middle ∧ second contents middle kept) expression kept) :
    ∃ middle, state.Follows first expression middle ∧ middle.Follows second expression kept := by
  refine induct ?leaf ?and ?or ?not follows
  case leaf =>
    rintro contents value kept ⟨middle, before, after⟩
    exact ⟨.leaf middle, .leaf before, .leaf after⟩
  case and =>
    intro children filters results each
    obtain ⟨middles, before, after⟩ := FoldedChildren.chain_iff.mp each
    exact ⟨.and middles, .and before, .and after⟩
  case or =>
    intro children filters results each
    obtain ⟨middles, before, after⟩ := FoldedChildren.chain_iff.mp each
    exact ⟨.or middles, .or before, .or after⟩
  case not =>
    rintro child filter result ⟨middle, before, after⟩
    exact ⟨middle.not, .not before, .not after⟩

theorem fits (follows : state.Follows rule expression kept) : state.Fits expression := by
  refine induct ?leaf ?and ?or ?not follows
  case leaf => exact fun _ _ _ _ => rfl
  case and => exact fun _ _ _ each => fits_and each.unchanged
  case or => exact fun _ _ _ each => fits_or each.unchanged
  case not => exact fun _ _ _ inner => fits_not_iff.mpr inner

theorem kept_fits (follows : state.Follows rule expression kept) : kept.Fits expression := by
  refine induct ?leaf ?and ?or ?not follows
  case leaf => exact fun _ _ _ _ => rfl
  case and => exact fun _ _ _ each => fits_and each
  case or => exact fun _ _ _ each => fits_or each
  case not => exact fun _ _ _ inner => fits_not_iff.mpr inner

theorem eachLeaf (follows : state.Follows rule expression kept) :
    state.EachLeaf (fun contents value => ∃ kept, rule contents value kept) expression := by
  refine induct ?leaf ?and ?or ?not follows
  case leaf => exact fun contents value kept changed => ⟨kept, changed⟩
  case and => exact fun _ _ _ each => eachLeafOfList_of_folded each
  case or => exact fun _ _ _ each => eachLeafOfList_of_folded each
  case not => exact fun _ _ _ inner => inner

end Follows

/-- What a change of the leaves by the rule takes is established by checking the shape. -/
theorem shapeVisitor_changes (rule : FilterLeaf → Json → Json → Prop) :
    shapeVisitor.Establishes fun state expression _ =>
      state.EachLeaf (fun contents value => ∃ kept, rule contents value kept) expression →
        ∃ kept, state.Follows rule expression kept where
  leaf contents value _ _ leaves := by
    obtain ⟨kept, changed⟩ := leaves
    exact ⟨.leaf kept, .leaf changed⟩
  and filters children units _ folded _ leaves := by
    obtain ⟨results, each⟩ := exists_folded_of_eachLeaf folded leaves
    exact ⟨.and results, .and each⟩
  or filters children units _ folded _ leaves := by
    obtain ⟨results, each⟩ := exists_folded_of_eachLeaf folded leaves
    exact ⟨.or results, .or each⟩
  not filter child _ _ changes _ leaves := by
    obtain ⟨result, inner⟩ := changes leaves
    exact ⟨result.not, .not inner⟩

/-- The leaves of a state can be changed exactly if it has the shape and each of them can be. -/
theorem exists_follows_iff : (∃ kept, state.Follows rule expression kept) ↔
    state.Fits expression ∧
      state.EachLeaf (fun contents value => ∃ kept, rule contents value kept) expression := by
  constructor
  · rintro ⟨kept, follows⟩
    exact ⟨follows.fits, follows.eachLeaf⟩
  · rintro ⟨fits, leaves⟩
    exact fold_belongs (shapeVisitor_changes rule) state expression () fits leaves

/-- What normalizing makes of the value of a leaf. -/
def NormalizesTo (mode : DateMode) (paths : List String) (contents : FilterLeaf)
    (value kept : Json) : Prop :=
  normalizeLeaf mode paths contents value = .ok (.leaf kept)

section

variable {mode : DateMode} {paths : List String}

theorem dateVisitor_follows (mode : DateMode) (paths : List String) :
    (dateVisitor mode paths).Establishes (Follows (NormalizesTo mode paths)) where
  leaf contents value result normal := by
    obtain ⟨kept, rfl⟩ := FilterLeaf.normalizeLeaf_eq_leaf normal
    exact .leaf normal
  and filters children results result folded normal := by
    cases normal
    exact .and folded
  or filters children results result folded normal := by
    cases normal
    exact .or folded
  not filter child inner result follows normal := by
    cases normal
    exact .not follows

theorem foldChildren_of_folded (folded : FoldedChildren (fun child filter result =>
      child.fold (dateVisitor mode paths) filter = .ok result) children filters results)
    (index : Nat) :
    foldChildren (dateVisitor mode paths) index children filters = .ok results := by
  induction folded generalizing index with
  | nil filters => rfl
  | cons first later ih =>
    exact bind_eq_ok.mpr ⟨_, first, bind_eq_ok.mpr ⟨_, ih (index + 1), rfl⟩⟩

/-- Normalizing a state is normalizing its leaves. -/
theorem fold_dateVisitor_eq_ok : state.fold (dateVisitor mode paths) expression = .ok kept ↔
    state.Follows (NormalizesTo mode paths) expression kept := by
  constructor
  · exact fold_belongs (dateVisitor_follows mode paths) state expression kept
  · intro follows
    refine follows.induct ?leaf ?and ?or ?not
    case leaf => exact fun contents value kept normal => normal
    case and =>
      intro children filters results folded
      exact bind_eq_ok.mpr ⟨results, foldChildren_of_folded folded 0, rfl⟩
    case or =>
      intro children filters results folded
      exact bind_eq_ok.mpr ⟨results, foldChildren_of_folded folded 0, rfl⟩
    case not => exact fun child filter result folded => bind_eq_ok.mpr ⟨result, folded, rfl⟩

end

mutual

/-- Changing the values that stand in canonical form is changing the values themselves. -/
theorem canonical_follows_iff : ∀ {state : FormState} {expression : FilterExpr} {kept : FormState},
    state.canonical.Follows rule expression kept ↔
      state.Follows (fun contents value kept => rule contents value.canonical kept) expression kept
  | .leaf _, _, _ => ⟨fun | .leaf changed => .leaf changed, fun | .leaf changed => .leaf changed⟩
  | .and _, _, _ =>
    ⟨fun | .and each => .and (foldedCanonical_iff.mp each),
      fun | .and each => .and (foldedCanonical_iff.mpr each)⟩
  | .or _, _, _ =>
    ⟨fun | .or each => .or (foldedCanonical_iff.mp each),
      fun | .or each => .or (foldedCanonical_iff.mpr each)⟩
  | .not _, _, _ =>
    ⟨fun | .not inner => .not (canonical_follows_iff.mp inner),
      fun | .not inner => .not (canonical_follows_iff.mpr inner)⟩

theorem foldedCanonical_iff : ∀ {children : List FormState} {filters : List FilterExpr}
    {results : List FormState},
    FoldedChildren (Follows rule) (canonicalList children) filters results ↔
      FoldedChildren (Follows fun contents value kept => rule contents value.canonical kept)
        children filters results
  | [], _, _ => ⟨fun | .nil filters => .nil filters, fun | .nil filters => .nil filters⟩
  | _ :: _, _, _ =>
    ⟨fun
      | .cons here later => .cons (canonical_follows_iff.mp here) (foldedCanonical_iff.mp later),
    fun
      | .cons here later => .cons (canonical_follows_iff.mpr here) (foldedCanonical_iff.mpr later)⟩

end

end FormState

namespace FormStates

variable {schema : FilterSchema} {rule : FilterLeaf → Json → Json → Prop}
  {states kept : FormStates} {mode : DateMode}

/-- The id stays, and so does the state of an unknown filter; that of a known one is changed. -/
def EntryFollows (schema : FilterSchema) (rule : FilterLeaf → Json → Json → Prop)
    (entry result : String × FormState) : Prop :=
  result.1 = entry.1 ∧
    match schema.filter? entry.1 with
    | some filter => entry.2.Follows rule filter.expression result.2
    | none => result.2 = entry.2

def Follows (schema : FilterSchema) (rule : FilterLeaf → Json → Json → Prop)
    (states kept : FormStates) : Prop :=
  List.Forall₂ (EntryFollows schema rule) states kept

section

variable {id : String} {state : FormState} {result : String × FormState} {filter : Filter}

theorem entryFollows_unknown (unknown : schema.filter? id = none) :
    EntryFollows schema rule (id, state) result ↔ result = (id, state) := by
  simp only [EntryFollows, unknown, Prod.ext_iff]

theorem entryFollows_known (known : schema.filter? id = some filter) :
    EntryFollows schema rule (id, state) result ↔
      ∃ kept, state.Follows rule filter.expression kept ∧ (id, kept) = result := by
  obtain ⟨id', state'⟩ := result
  simp only [EntryFollows, known, Prod.mk.injEq]
  constructor
  · rintro ⟨rfl, follows⟩
    exact ⟨state', follows, rfl, rfl⟩
  · rintro ⟨kept, follows, rfl, rfl⟩
    exact ⟨rfl, follows⟩

theorem exists_entryFollows_iff : (∃ result, EntryFollows schema rule (id, state) result) ↔
    ∀ filter, schema.filter? id = some filter → state.Fits filter.expression ∧
      state.EachLeaf (fun contents value => ∃ kept, rule contents value kept)
        filter.expression := by
  cases known : schema.filter? id with
  | none =>
    refine ⟨fun _ => nofun, fun _ => ⟨(id, state), ?_⟩⟩
    exact (entryFollows_unknown known).mpr rfl
  | some filter =>
    simp only [entryFollows_known known, Option.some.injEq, forall_eq',
      ← FormState.exists_follows_iff]
    constructor
    · rintro ⟨_, kept, follows, rfl⟩
      exact ⟨kept, follows⟩
    · rintro ⟨kept, follows⟩
      exact ⟨_, kept, follows, rfl⟩

end

theorem Follows.imp {rule' : FilterLeaf → Json → Json → Prop}
    (weaker : ∀ contents value kept, rule contents value kept → rule' contents value kept)
    (follows : states.Follows schema rule kept) : states.Follows schema rule' kept := by
  refine List.Forall₂.imp ?_ follows
  rintro ⟨id, state⟩ result entry
  cases known : schema.filter? id with
  | none =>
    rw [entryFollows_unknown known] at entry ⊢
    exact entry
  | some filter =>
    rw [entryFollows_known known] at entry ⊢
    obtain ⟨kept, follows, same⟩ := entry
    exact ⟨kept, follows.imp weaker, same⟩

/-- Normalizing states is normalizing the leaves of those whose filters are known. -/
theorem normalize_eq_ok : normalize mode schema states = .ok kept ↔
    states.Follows schema (FormState.NormalizesTo mode schema.datePaths) kept := by
  induction states generalizing kept with
  | nil =>
    rw [normalize, Follows, List.forall₂_nil_left_iff, Except.ok.injEq, eq_comm]
  | cons entry rest ih =>
    obtain ⟨id, state⟩ := entry
    rw [Follows, List.forall₂_cons_left_iff]
    cases known : schema.filter? id with
    | none =>
      simp only [normalize_unknown_eq_ok known, entryFollows_unknown known, ih]
      constructor
      · rintro ⟨others, later, rfl⟩
        exact ⟨_, others, rfl, later, rfl⟩
      · rintro ⟨_, others, rfl, later, rfl⟩
        exact ⟨others, later, rfl⟩
    | some filter =>
      simp only [normalize_known_eq_ok known, entryFollows_known known,
        FormState.fold_dateVisitor_eq_ok, ih]
      constructor
      · rintro ⟨first, here, others, later, rfl⟩
        exact ⟨_, others, ⟨first, here, rfl⟩, later, rfl⟩
      · rintro ⟨_, others, ⟨first, here, rfl⟩, later, rfl⟩
        exact ⟨first, here, others, later, rfl⟩

/-- The leaves of states can be changed exactly if the states are in shape and each leaf can be. -/
theorem exists_follows_iff : (∃ kept, states.Follows schema rule kept) ↔
    WellShaped schema states ∧ EachKnown schema
      (FormState.EachLeaf fun contents value => ∃ kept, rule contents value kept) states := by
  induction states with
  | nil => exact ⟨fun _ => ⟨nofun, nofun⟩, fun _ => ⟨[], .nil⟩⟩
  | cons entry rest ih =>
    obtain ⟨id, state⟩ := entry
    rw [wellShaped_cons, eachKnown_cons]
    constructor
    · rintro ⟨kept, follows⟩
      obtain ⟨result, others, here, later, rfl⟩ := List.forall₂_cons_left_iff.mp follows
      have first := exists_entryFollows_iff.mp ⟨result, here⟩
      obtain ⟨shaped, leaves⟩ := ih.mp ⟨others, later⟩
      exact ⟨⟨fun filter known => (first filter known).1, shaped⟩,
        fun filter known => (first filter known).2, leaves⟩
    · rintro ⟨⟨fits, shaped⟩, here, leaves⟩
      obtain ⟨result, first⟩ := exists_entryFollows_iff.mpr fun filter known =>
        ⟨fits filter known, here filter known⟩
      obtain ⟨others, later⟩ := ih.mpr ⟨shaped, leaves⟩
      exact ⟨result :: others, .cons first later⟩

end FormStates

end GridQuery
