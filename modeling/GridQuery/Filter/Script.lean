import GridQuery.Filter.Expr

/-!
Filter expressions built by a script of calls. A call adds a leaf, which is a comparison in most
cases, or a group that is built by a script of its own. A builder with one entry gives that entry,
one without entries is an error, and after the first error nothing is added.
-/

namespace GridQuery

inductive ScriptCall where
  | leaf (contents : FilterLeaf)
  | allOf (calls : List ScriptCall)
  | anyOf (calls : List ScriptCall)
  | notAll (calls : List ScriptCall)

namespace ScriptCall

/-- Adds a comparison of the target with what the control collects, without a hook. -/
def comparison (operator : FilterOperator) (target : FieldTarget) (control : Control) :
    ScriptCall :=
  .leaf (.plain operator target control)

def equals : FieldTarget → Control → ScriptCall :=
  comparison .equals

def notEquals : FieldTarget → Control → ScriptCall :=
  comparison .notEquals

def greaterThan : FieldTarget → Control → ScriptCall :=
  comparison .greaterThan

def lessThan : FieldTarget → Control → ScriptCall :=
  comparison .lessThan

def greaterThanOrEqual : FieldTarget → Control → ScriptCall :=
  comparison .greaterThanOrEqual

def lessThanOrEqual : FieldTarget → Control → ScriptCall :=
  comparison .lessThanOrEqual

def isIn : FieldTarget → Control → ScriptCall :=
  comparison .isIn

def notIn : FieldTarget → Control → ScriptCall :=
  comparison .notIn

def like : FieldTarget → Control → ScriptCall :=
  comparison .like

def ilike : FieldTarget → Control → ScriptCall :=
  comparison .ilike

def isNull : FieldTarget → Control → ScriptCall :=
  comparison .isNull

end ScriptCall

/-- Whether all or some of the entries must hold. -/
inductive Joining where
  | all
  | any
deriving DecidableEq

def Joining.join : Joining → List FilterExpr → FilterExpr
  | .all, entries => .and entries
  | .any, entries => .or entries

structure FilterBuilder where
  joining : Joining
  entries : List FilterExpr := []
  error : Option ViewError := none

namespace FilterBuilder

def add (builder : FilterBuilder) (entry : FilterExpr) : FilterBuilder :=
  match builder.error with
  | some _ => builder
  | none => { builder with entries := builder.entries ++ [entry] }

/-- Only the first error is kept. -/
def fail (builder : FilterBuilder) (error : ViewError) : FilterBuilder :=
  match builder.error with
  | some _ => builder
  | none => { builder with error := some error }

/-- Adds what a group has come to, or keeps its error. -/
def addGroup (builder : FilterBuilder) (group : Except ViewError FilterExpr)
    (entry : FilterExpr → FilterExpr) : FilterBuilder :=
  match group with
  | .ok filter => builder.add (entry filter)
  | .error error => builder.fail error

def finish (builder : FilterBuilder) (whenEmpty : ArgumentFault) : Except ViewError FilterExpr :=
  match builder.error with
  | some error => .error error
  | none =>
    match builder.entries with
    | [] => .error (.invalid whenEmpty)
    | [entry] => .ok entry
    | entries => .ok (builder.joining.join entries)

mutual

def call (builder : FilterBuilder) : ScriptCall → FilterBuilder
  | .leaf contents => builder.add (.leaf contents)
  | .allOf calls => builder.addGroup ((run { joining := .all } calls).finish .emptyGroup) id
  | .anyOf calls => builder.addGroup ((run { joining := .any } calls).finish .emptyGroup) id
  | .notAll calls => builder.addGroup ((run { joining := .all } calls).finish .emptyGroup) .not
termination_by structural next => next

def run (builder : FilterBuilder) : List ScriptCall → FilterBuilder
  | [] => builder
  | next :: rest => (builder.call next).run rest

end

end FilterBuilder

/-- The expression that a script describes: all of its entries must hold. -/
def FilterExpr.ofScript (calls : List ScriptCall) : Except ViewError FilterExpr :=
  (FilterBuilder.run { joining := .all } calls).finish .emptyFilter

end GridQuery
