import GridQuery.Filter.Expr
import GridQuery.Form.State

/-!
Folding an expression together with a state of its shape. The state decides what is visited: every
state node needs an expression node of its kind at its place, and children are folded from left to
right before their parent.
-/

namespace GridQuery

/-- What is done at each kind of node. Parents receive the expressions and states of their children
and the children's results. -/
structure FormVisitor (m : Type → Type) (α : Type) where
  leaf : FilterLeaf → Json → m α
  and : List FilterExpr → List FormState → List α → m α
  or : List FilterExpr → List FormState → List α → m α
  not : FilterExpr → FormState → α → m α

namespace FormState

section

variable {m : Type → Type} {α : Type} [Monad m] [MonadExceptOf ViewError m]

mutual

def fold (visitor : FormVisitor m α) : FormState → FilterExpr → m α
  | .leaf value, expression =>
    match expression with
    | .leaf contents => visitor.leaf contents value
    | other => throw (.schemaMismatch .leaf other.kind)
  | .and children, expression =>
    match expression with
    | .and filters => do
      let results ← foldChildren visitor 0 children filters
      visitor.and filters children results
    | other => throw (.schemaMismatch .and other.kind)
  | .or children, expression =>
    match expression with
    | .or filters => do
      let results ← foldChildren visitor 0 children filters
      visitor.or filters children results
    | other => throw (.schemaMismatch .or other.kind)
  | .not child, expression =>
    match expression with
    | .not filter => do
      let result ← fold visitor child filter
      visitor.not filter child result
    | other => throw (.schemaMismatch .not other.kind)
termination_by structural state => state

/-- Folds the children that stand from place `index` on. -/
def foldChildren (visitor : FormVisitor m α) (index : Nat) :
    List FormState → List FilterExpr → m (List α)
  | [], _ => pure []
  | child :: rest, filters =>
    match filters with
    | [] => throw (.missingChildSchema index)
    | filter :: others => do
      let first ← fold visitor child filter
      let results ← foldChildren visitor (index + 1) rest others
      return first :: results

end

end

def shapeVisitor : FormVisitor (Except ViewError) Unit where
  leaf _ _ := .ok ()
  and _ _ _ := .ok ()
  or _ _ _ := .ok ()
  not _ _ _ := .ok ()

/-- Whether the state can be folded with the expression, and the first fault if it cannot. -/
def checkShape (expression : FilterExpr) (state : FormState) : Except ViewError Unit :=
  state.fold shapeVisitor expression

end FormState

end GridQuery
