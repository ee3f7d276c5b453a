import GridQuery.Filter.Registry
import GridQuery.Proofs.Named
import GridQuery.Proofs.Outcome

/-!
What resolving leaves of a schema. The leaves are walked in the order in which the filters list
them; those before the first unknown name get the hooks that they name, and all else stays as it
was.
-/

namespace GridQuery

/-- The leaf but for its hook. -/
def FilterLeaf.withoutHook (leaf : FilterLeaf) : FilterLeaf :=
  { leaf with hook := none }

namespace FilterExpr

mutual

/-- The expression but for the hooks of its leaves. -/
def withoutHooks : FilterExpr → FilterExpr
  | .leaf contents => .leaf contents.withoutHook
  | .and filters => .and (withoutHooksOfList filters)
  | .or filters => .or (withoutHooksOfList filters)
  | .not filter => .not filter.withoutHooks

def withoutHooksOfList : List FilterExpr → List FilterExpr
  | [] => []
  | filter :: rest => filter.withoutHooks :: withoutHooksOfList rest

end

end FilterExpr

/-- The filter but for the hooks of its leaves. -/
def Filter.withoutHooks (filter : Filter) : Filter :=
  { filter with expression := filter.expression.withoutHooks }

namespace FilterSchema

/-- All leaves in the order of the filters, those of a filter from left to right. -/
def leaves (schema : FilterSchema) : List FilterLeaf :=
  schema.filters.flatMap fun filter => filter.expression.leaves

/-- The names that the leaves give for their hooks. -/
def hookNames (schema : FilterSchema) : List String :=
  schema.leaves.filterMap FilterLeaf.hookName

/-- The schema but for the hooks of its leaves. -/
def withoutHooks (schema : FilterSchema) : FilterSchema :=
  { schema with filters := schema.filters.map Filter.withoutHooks }

end FilterSchema

section Walk

variable {ε : Type}

/-- Leaves before and after a walk that updates them one by one: it comes through all of them, or
up to the first one that cannot be updated. -/
inductive Walked (step : FilterLeaf → Except ε FilterLeaf) :
    List FilterLeaf → List FilterLeaf → Option ε → Prop
  | through {leaves updated : List FilterLeaf}
      (each : List.Forall₂ (fun leaf result => step leaf = .ok result) leaves updated) :
      Walked step leaves updated none
  | upTo {before updated after : List FilterLeaf} {leaf : FilterLeaf} {failure : ε}
      (each : List.Forall₂ (fun leaf result => step leaf = .ok result) before updated)
      (fails : step leaf = .error failure) :
      Walked step (before ++ leaf :: after) (updated ++ leaf :: after) (some failure)

variable {step : FilterLeaf → Except ε FilterLeaf} {failure : ε} {outcome : Option ε}
variable {leaves updated more results : List FilterLeaf}

theorem Walked.append (first : Walked step leaves updated none)
    (second : Walked step more results outcome) :
    Walked step (leaves ++ more) (updated ++ results) outcome := by
  cases first with
  | through each =>
    cases second with
    | through each' => exact .through (List.rel_append each each')
    | upTo each' fails =>
      rw [← List.append_assoc, ← List.append_assoc]
      exact .upTo (List.rel_append each each') fails

theorem Walked.append_of_failed (first : Walked step leaves updated (some failure))
    (more : List FilterLeaf) : Walked step (leaves ++ more) (updated ++ more) (some failure) := by
  cases first with
  | upTo each fails =>
    rw [List.append_assoc, List.append_assoc, List.cons_append]
    exact .upTo each fails

theorem Walked.each_of_none (walked : Walked step leaves updated none) :
    List.Forall₂ (fun leaf result => step leaf = .ok result) leaves updated := by
  cases walked with
  | through each => exact each

theorem Walked.exists_of_some (walked : Walked step leaves updated (some failure)) :
    ∃ before results leaf after,
      leaves = before ++ leaf :: after ∧ updated = results ++ leaf :: after ∧
      List.Forall₂ (fun leaf result => step leaf = .ok result) before results ∧
      step leaf = .error failure := by
  cases walked with
  | upTo each fails => exact ⟨_, _, _, _, rfl, rfl, each, fails⟩

namespace FilterExpr

mutual

/-- The walk that updates an expression goes along its leaves. -/
theorem walked_updateLeaves (step : FilterLeaf → Except ε FilterLeaf) : ∀ filter : FilterExpr,
    Walked step filter.leaves (updateLeaves step filter).1.leaves (updateLeaves step filter).2
  | .leaf contents => by
    rw [updateLeaves]
    cases stepped : step contents with
    | ok updated => exact .through (.cons stepped .nil)
    | error failure => exact .upTo .nil stepped
  | .and filters => walked_updateList step filters
  | .or filters => walked_updateList step filters
  | .not filter => walked_updateLeaves step filter

theorem walked_updateList (step : FilterLeaf → Except ε FilterLeaf) : ∀ filters : List FilterExpr,
    Walked step (leavesOfList filters) (leavesOfList (updateList step filters).1)
      (updateList step filters).2
  | [] => .through .nil
  | filter :: rest => by
    have first := walked_updateLeaves step filter
    have others := walked_updateList step rest
    rw [updateList]
    split
    next updated failure made =>
      rw [made] at first
      exact first.append_of_failed _
    next updated made =>
      rw [made] at first
      exact first.append others

end

mutual

theorem withoutHooks_updateLeaves
    (keeps : ∀ leaf result, step leaf = .ok result → result.withoutHook = leaf.withoutHook) :
    ∀ filter : FilterExpr, (updateLeaves step filter).1.withoutHooks = filter.withoutHooks
  | .leaf contents => by
    rw [updateLeaves]
    cases stepped : step contents with
    | ok updated => exact congrArg FilterExpr.leaf (keeps contents updated stepped)
    | error failure => rfl
  | .and filters => congrArg FilterExpr.and (withoutHooks_updateList keeps filters)
  | .or filters => congrArg FilterExpr.or (withoutHooks_updateList keeps filters)
  | .not filter => congrArg FilterExpr.not (withoutHooks_updateLeaves keeps filter)

theorem withoutHooks_updateList
    (keeps : ∀ leaf result, step leaf = .ok result → result.withoutHook = leaf.withoutHook) :
    ∀ filters : List FilterExpr,
      withoutHooksOfList (updateList step filters).1 = withoutHooksOfList filters
  | [] => rfl
  | filter :: rest => by
    have first := withoutHooks_updateLeaves keeps filter
    have others := withoutHooks_updateList keeps rest
    rw [updateList]
    split
    next updated failure made =>
      rw [made] at first
      rw [withoutHooksOfList, withoutHooksOfList, first]
    next updated made =>
      rw [made] at first
      rw [withoutHooksOfList, withoutHooksOfList, first, others]

end

mutual

theorem updateLeaves_of_fixed : ∀ filter : FilterExpr,
    (∀ leaf ∈ filter.leaves, step leaf = .ok leaf) → updateLeaves step filter = (filter, none)
  | .leaf contents, fixed => by
    rw [updateLeaves, fixed contents (List.mem_singleton_self contents)]
  | .and filters, fixed => by rw [updateLeaves, updateList_of_fixed filters fixed]
  | .or filters, fixed => by rw [updateLeaves, updateList_of_fixed filters fixed]
  | .not filter, fixed => by rw [updateLeaves, updateLeaves_of_fixed filter fixed]

theorem updateList_of_fixed : ∀ filters : List FilterExpr,
    (∀ leaf ∈ leavesOfList filters, step leaf = .ok leaf) →
      updateList step filters = (filters, none)
  | [], _ => rfl
  | filter :: rest, fixed => by
    obtain ⟨first, others⟩ := List.forall_mem_append.mp fixed
    rw [updateList, updateLeaves_of_fixed filter first, updateList_of_fixed rest others]

end

end FilterExpr

end Walk

namespace Registry

/-- What becomes of a leaf: it stays as it is if it names no hook, and otherwise the hook registered
under the name is attached to it. -/
inductive Attaches (registry : Registry) : FilterLeaf → FilterLeaf → Prop
  | unnamed {leaf : FilterLeaf} (unnamed : leaf.hookName = none) : Attaches registry leaf leaf
  | named {leaf : FilterLeaf} {name : String} {hook : Hook} (named : leaf.hookName = some name)
      (found : registry.hook? name = some hook) :
      Attaches registry leaf { leaf with hook := some hook }

/-- The names under which hooks are registered. -/
def names (registry : Registry) : List String :=
  Named.names registry.hooks

/-- The leaves have the hooks that they name, all else is as it was, and there is nothing left to
attach. -/
structure Resolved (registry : Registry) (schema resolved : FilterSchema) : Prop where
  leaves : List.Forall₂ registry.Attaches schema.leaves resolved.leaves
  others : resolved.withoutHooks = schema.withoutHooks
  again : registry.resolve resolved = .ok resolved

/-- The name is the first unknown one. The leaves before the one that gives it have their hooks;
this leaf, those after it and all else are as they were. -/
structure StoppedAt (registry : Registry) (schema left : FilterSchema) (name : String) : Prop where
  first : schema.hookNames.find? (fun name => name ∉ registry.names) = some name
  leaves : ∃ before attached leaf after, leaf.hookName = some name ∧
    schema.leaves = before ++ leaf :: after ∧ left.leaves = attached ++ leaf :: after ∧
    List.Forall₂ registry.Attaches before attached
  others : left.withoutHooks = schema.withoutHooks

variable {registry : Registry} {schema resolved : FilterSchema} {leaf result : FilterLeaf}
variable {failure : ViewError} {leaves updated : List FilterLeaf}

theorem resolveLeaf_eq_ok_iff :
    registry.resolveLeaf leaf = .ok result ↔ registry.Attaches leaf result := by
  constructor
  · intro made
    unfold resolveLeaf at made
    split at made
    next unnamed =>
      cases made
      exact .unnamed unnamed
    next name named =>
      split at made
      next hook found =>
        cases made
        exact .named named found
      next => cases made
  · intro attaches
    cases attaches with
    | unnamed unnamed => simp only [resolveLeaf, unnamed]
    | named named found => simp only [resolveLeaf, named, found]

theorem resolveLeaf_eq_error_iff : registry.resolveLeaf leaf = .error failure ↔
    ∃ name, leaf.hookName = some name ∧ name ∉ registry.names ∧
      failure = .unknownCapability "transform" name := by
  unfold resolveLeaf
  split
  next unnamed => simp [unnamed]
  next name named =>
    split
    next hook found =>
      have known : name ∈ registry.names := Named.exists_find?_iff.mp ⟨hook, found⟩
      simp [named, known]
    next missing =>
      have unknown : name ∉ registry.names := Named.find?_eq_none_iff.mp missing
      simp [named, unknown, eq_comm]

theorem Attaches.known (attaches : registry.Attaches leaf result) :
    ∀ name ∈ leaf.hookName, name ∈ registry.names := by
  intro name given
  cases attaches with
  | unnamed unnamed =>
    rw [unnamed] at given
    cases given
  | named named found =>
    rw [named] at given
    cases given
    exact Named.exists_find?_iff.mp ⟨_, found⟩

theorem Attaches.withoutHook (attaches : registry.Attaches leaf result) :
    result.withoutHook = leaf.withoutHook := by
  cases attaches <;> rfl

/-- What was resolved stays as it is. -/
theorem Attaches.again (attaches : registry.Attaches leaf result) :
    registry.Attaches result result := by
  cases attaches with
  | unnamed unnamed => exact .unnamed unnamed
  | @named name hook named found =>
    have again : registry.Attaches { leaf with hook := some hook } _ := .named named found
    exact again

theorem known_of_attached (each : List.Forall₂ registry.Attaches leaves updated) :
    ∀ leaf ∈ leaves, ∀ name ∈ leaf.hookName, name ∈ registry.names := by
  induction each with
  | nil => exact nofun
  | cons attaches _ ih => exact List.forall_mem_cons.mpr ⟨attaches.known, ih⟩

theorem again_of_attached (each : List.Forall₂ registry.Attaches leaves updated) :
    ∀ leaf ∈ updated, registry.Attaches leaf leaf := by
  induction each with
  | nil => exact nofun
  | cons attaches _ ih => exact List.forall_mem_cons.mpr ⟨attaches.again, ih⟩

theorem walked_resolveFilters (registry : Registry) (filters : List Filter) :
    Walked registry.resolveLeaf (filters.flatMap fun filter => filter.expression.leaves)
      ((registry.resolveFilters filters).1.flatMap fun filter => filter.expression.leaves)
      (registry.resolveFilters filters).2 := by
  induction filters with
  | nil => exact .through .nil
  | cons filter rest others =>
    have first := FilterExpr.walked_updateLeaves registry.resolveLeaf filter.expression
    rw [resolveFilters]
    split
    next expression failure made =>
      rw [made] at first
      exact first.append_of_failed _
    next expression made =>
      rw [made] at first
      exact first.append others

/-- Resolving walks along the leaves of the schema. -/
theorem walked_attach (registry : Registry) (schema : FilterSchema) :
    Walked registry.resolveLeaf schema.leaves (registry.attach schema).1.leaves
      (registry.attach schema).2 :=
  registry.walked_resolveFilters schema.filters

theorem withoutHooks_resolveFilters (registry : Registry) (filters : List Filter) :
    (registry.resolveFilters filters).1.map Filter.withoutHooks =
      filters.map Filter.withoutHooks := by
  induction filters with
  | nil => rfl
  | cons filter rest others =>
    have keeps : ∀ leaf result, registry.resolveLeaf leaf = .ok result →
        result.withoutHook = leaf.withoutHook := fun leaf result made =>
      (resolveLeaf_eq_ok_iff.mp made).withoutHook
    have first := FilterExpr.withoutHooks_updateLeaves keeps filter.expression
    rw [resolveFilters]
    split
    next expression failure made =>
      rw [made] at first
      simp only [List.map_cons, Filter.withoutHooks, first]
    next expression made =>
      rw [made] at first
      simp only [List.map_cons, others, Filter.withoutHooks, first]

theorem withoutHooks_attach (registry : Registry) (schema : FilterSchema) :
    (registry.attach schema).1.withoutHooks = schema.withoutHooks :=
  congrArg (FilterSchema.mk schema.groups) (registry.withoutHooks_resolveFilters schema.filters)

theorem resolveFilters_of_fixed (filters : List Filter)
    (fixed : ∀ leaf ∈ filters.flatMap fun filter => filter.expression.leaves,
      registry.Attaches leaf leaf) :
    registry.resolveFilters filters = (filters, none) := by
  induction filters with
  | nil => rfl
  | cons filter rest ih =>
    obtain ⟨first, others⟩ := List.forall_mem_append.mp fixed
    rw [resolveFilters, FilterExpr.updateLeaves_of_fixed filter.expression
      fun leaf member => resolveLeaf_eq_ok_iff.mpr (first leaf member), ih others]

theorem attach_of_fixed (fixed : ∀ leaf ∈ schema.leaves, registry.Attaches leaf leaf) :
    registry.attach schema = (schema, none) := by
  rw [attach, resolveFilters_of_fixed schema.filters fixed]

theorem resolve_eq_ok_iff :
    registry.resolve schema = .ok resolved ↔ registry.attach schema = (resolved, none) := by
  rw [resolve]
  split
  next left made => rw [made, Except.ok.injEq, Prod.mk.injEq, and_iff_left rfl]
  next left failure made => simp [made]

theorem resolve_eq_error_iff :
    registry.resolve schema = .error failure ↔ (registry.attach schema).2 = some failure := by
  rw [resolve]
  split
  next left made => simp [made]
  next left failure made => simp [made]

/-- Where resolving succeeds it attaches the hooks of all leaves. -/
theorem attached_of_resolve (made : registry.resolve schema = .ok resolved) :
    List.Forall₂ registry.Attaches schema.leaves resolved.leaves := by
  have walked := registry.walked_attach schema
  rw [resolve_eq_ok_iff.mp made] at walked
  exact walked.each_of_none.imp fun _ _ => resolveLeaf_eq_ok_iff.mp

/-- Where it fails there is a leaf with an unknown name, and it attaches the hooks of the leaves
before this one. -/
theorem attached_of_fail (failed : registry.resolve schema = .error failure) :
    ∃ before attached leaf after name,
      schema.leaves = before ++ leaf :: after ∧
      (registry.attach schema).1.leaves = attached ++ leaf :: after ∧
      List.Forall₂ registry.Attaches before attached ∧
      leaf.hookName = some name ∧ name ∉ registry.names ∧
      failure = .unknownCapability "transform" name := by
  have walked := registry.walked_attach schema
  rw [resolve_eq_error_iff.mp failed] at walked
  obtain ⟨before, attached, leaf, after, leaves, left, each, fails⟩ := walked.exists_of_some
  obtain ⟨name, named, unknown, same⟩ := resolveLeaf_eq_error_iff.mp fails
  exact ⟨before, attached, leaf, after, name, leaves, left,
    each.imp fun _ _ => resolveLeaf_eq_ok_iff.mp, named, unknown, same⟩

/-- The name of a leaf behind resolved ones is the first unknown one. -/
theorem find?_unknown {before attached after : List FilterLeaf} {name : String}
    (each : List.Forall₂ registry.Attaches before attached) (named : leaf.hookName = some name)
    (unknown : name ∉ registry.names) :
    ((before ++ leaf :: after).filterMap FilterLeaf.hookName).find?
      (fun name => name ∉ registry.names) = some name := by
  have known : (before.filterMap FilterLeaf.hookName).find? (fun name => name ∉ registry.names) =
      none := by
    rw [List.find?_eq_none]
    intro other member missing
    obtain ⟨source, inside, given⟩ := List.mem_filterMap.mp member
    exact of_decide_eq_true missing (known_of_attached each source inside other given)
  rw [List.filterMap_append, List.find?_append, known, Option.none_or,
    List.filterMap_cons_some named]
  exact List.find?_cons_of_pos (decide_eq_true unknown)

theorem exists_resolve_iff : (∃ resolved, registry.resolve schema = .ok resolved) ↔
    ∀ name ∈ schema.hookNames, name ∈ registry.names := by
  constructor
  · intro ⟨resolved, made⟩ name member
    obtain ⟨leaf, inside, given⟩ := List.mem_filterMap.mp member
    exact known_of_attached (attached_of_resolve made) leaf inside name given
  · intro known
    cases outcome : registry.resolve schema with
    | ok resolved => exact ⟨resolved, rfl⟩
    | error failure =>
      obtain ⟨before, _, leaf, after, name, leaves, _, _, named, unknown, _⟩ :=
        attached_of_fail outcome
      have member : name ∈ schema.hookNames := by
        rw [FilterSchema.hookNames, leaves]
        exact List.mem_filterMap.mpr ⟨leaf, by simp, named⟩
      exact absurd (known name member) unknown

/-- A schema is resolved exactly if all names in it are registered. Otherwise the first unknown name
is reported, and it is resolved up to there. -/
theorem resolves_upTo_unknown (registry : Registry) (schema : FilterSchema) :
    ((∃ resolved, registry.resolve schema = .ok resolved) ↔
      ∀ name ∈ schema.hookNames, name ∈ registry.names) ∧
    (∀ resolved, registry.resolve schema = .ok resolved →
      registry.attach schema = (resolved, none) ∧ registry.Resolved schema resolved) ∧
    ∀ failure, registry.resolve schema = .error failure →
      ∃ left name, registry.attach schema = (left, some failure) ∧
        failure = .unknownCapability "transform" name ∧ registry.StoppedAt schema left name := by
  refine ⟨exists_resolve_iff, ?_, ?_⟩
  · intro resolved made
    have attached := attached_of_resolve made
    have state := resolve_eq_ok_iff.mp made
    have kept := registry.withoutHooks_attach schema
    rw [state] at kept
    exact ⟨state, attached, kept,
      resolve_eq_ok_iff.mpr (attach_of_fixed (again_of_attached attached))⟩
  · intro failure failed
    obtain ⟨before, attached, leaf, after, name, leaves, left, each, named, unknown, same⟩ :=
      attached_of_fail failed
    have first : schema.hookNames.find? (fun name => name ∉ registry.names) = some name := by
      rw [FilterSchema.hookNames, leaves]
      exact find?_unknown each named unknown
    have state : registry.attach schema = ((registry.attach schema).1, some failure) := by
      rw [← resolve_eq_error_iff.mp failed]
    exact ⟨_, name, state, same, first, ⟨before, attached, leaf, after, named, leaves, left, each⟩,
      registry.withoutHooks_attach schema⟩

def namedLeaf (field : String) (name : Option String) : FilterLeaf :=
  { FilterLeaf.plain .equals (.one field) (.text none none) with hookName := name }

/-- A title that is trimmed, but not by a certain author. -/
def titleFilter : Filter :=
  ⟨"title", "Title", .and [.leaf (namedLeaf "title" (some "trim")),
    .not (.leaf (namedLeaf "author" none))], none, false⟩

/-- The second of the names is not among `builtins`. -/
def tagsFilter : Filter :=
  ⟨"tags", "Tags", .or [.leaf (namedLeaf "tags" (some "wildcard")),
    .leaf (namedLeaf "tags" (some "soundex")), .leaf (namedLeaf "note" (some "trim"))], none, false⟩

theorem soundex_stops :
    (∃ resolved, builtins.resolve ⟨[], [titleFilter]⟩ = .ok resolved ∧
      builtins.Resolved ⟨[], [titleFilter]⟩ resolved) ∧
    builtins.resolve ⟨[], [titleFilter, tagsFilter]⟩ =
      .error (.unknownCapability "transform" "soundex") ∧
    ∃ left, (left.leaves.map fun leaf => leaf.hook.isSome) = [true, false, true, false, false] ∧
      builtins.StoppedAt ⟨[], [titleFilter, tagsFilter]⟩ left "soundex" := by
  obtain ⟨made, resolved, _⟩ := resolves_upTo_unknown builtins ⟨[], [titleFilter]⟩
  have known : ∀ name ∈ FilterSchema.hookNames ⟨[], [titleFilter]⟩, name ∈ builtins.names := by
    decide
  obtain ⟨result, ends⟩ := made.mpr known
  have failed : builtins.resolve ⟨[], [titleFilter, tagsFilter]⟩ =
      .error (.unknownCapability "transform" "soundex") := rfl
  obtain ⟨left, name, state, same, stopped⟩ :=
    (resolves_upTo_unknown builtins ⟨[], [titleFilter, tagsFilter]⟩).2.2 _ failed
  cases same
  have reached : (builtins.attach ⟨[], [titleFilter, tagsFilter]⟩).1 = left :=
    congrArg Prod.fst state
  have hooks : (left.leaves.map fun leaf => leaf.hook.isSome) =
      [true, false, true, false, false] := by
    rw [← reached]
    rfl
  exact ⟨⟨result, ends, (resolved result ends).2⟩, failed, left, hooks, stopped⟩

end Registry

end GridQuery
