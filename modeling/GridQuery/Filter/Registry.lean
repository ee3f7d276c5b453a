import GridQuery.Filter.Schema
import GridQuery.Text.Blank
import GridQuery.Text.Case

/-!
Hooks by name. Views name the hooks of their leaves; resolving a schema attaches the registered
hooks to the leaves that name them.
-/

namespace GridQuery

/-- The registered hooks, in ascending order of their names. -/
structure Registry where
  hooks : List (String × Hook)

namespace Registry

def empty : Registry :=
  ⟨[]⟩

def register (registry : Registry) (name : String) (hook : Hook) : Registry :=
  ⟨Named.insert name hook registry.hooks⟩

def hook? (registry : Registry) (name : String) : Option Hook :=
  Named.find? name registry.hooks

/-- Changes texts that are not empty and leaves every other value alone, so that an empty input
stays inactive. -/
def onText (change : String → String) : Hook
  | .string text => .override none (if text.isEmpty then none else some (.string (change text)))
  | _ => .override none none

def builtins : Registry :=
  ⟨Named.ofList [
    ("lowercase", onText Text.lowercase),
    ("uppercase", onText Text.uppercase),
    ("trim", onText Text.trim),
    ("wildcard", onText fun text => "%" ++ text ++ "%")]⟩

/-- Attaches the hook that a leaf names. -/
def resolveLeaf (registry : Registry) (leaf : FilterLeaf) : Except ViewError FilterLeaf :=
  match leaf.hookName with
  | none => .ok leaf
  | some name =>
    match registry.hook? name with
    | some hook => .ok { leaf with hook := some hook }
    | none => .error (.unknownCapability "transform" name)

/-- The filters with the leaves before the first unknown name resolved, and that failure. -/
def resolveFilters (registry : Registry) : List Filter → List Filter × Option ViewError
  | [] => ([], none)
  | filter :: rest =>
    match filter.expression.updateLeaves registry.resolveLeaf with
    | (expression, some failure) => ({ filter with expression } :: rest, some failure)
    | (expression, none) =>
      let (others, failure) := resolveFilters registry rest
      ({ filter with expression } :: others, failure)

def attach (registry : Registry) (schema : FilterSchema) : FilterSchema × Option ViewError :=
  let (filters, failure) := registry.resolveFilters schema.filters
  ({ schema with filters }, failure)

def resolve (registry : Registry) (schema : FilterSchema) : Except ViewError FilterSchema :=
  match registry.attach schema with
  | (resolved, none) => .ok resolved
  | (_, some failure) => .error failure

end Registry

end GridQuery
