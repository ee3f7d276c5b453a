import GridQuery.Paging.Rows
import GridQuery.Query.Variables

/-!
Fetching the pages of a view. Every request gets a ticket, and only the response to the newest
ticket counts.
-/

namespace GridQuery

/-- Tickets are ordered by when they were issued. -/
structure Ticket where
  generation : UInt64
deriving DecidableEq, Ord

/-- What becomes of a response: it counts, or a newer request has taken its place. -/
inductive Settled (α : Type) where
  | current (value : α)
  | superseded
deriving DecidableEq

/-- The number of tickets issued, in 64 bits. -/
structure Generation where
  latest : UInt64
deriving DecidableEq

namespace Generation

def none : Generation :=
  ⟨0⟩

def begin (generation : Generation) : Ticket × Generation :=
  (⟨generation.latest + 1⟩, ⟨generation.latest + 1⟩)

def isCurrent (generation : Generation) (ticket : Ticket) : Bool :=
  generation.latest = ticket.generation

def settle {α : Type} (generation : Generation) (ticket : Ticket) (value : α) : Settled α :=
  if generation.isCurrent ticket then .current value else .superseded

end Generation

structure Page where
  rows : List RowCells
  rawRows : List Json
  nextCursor : Option Json

structure PreparedRequest where
  ticket : Ticket
  query : String
  queryVariables : QueryVariables

structure Planner where
  view : View
  rowLimit : Nat
  generation : Generation

namespace Planner

def new (view : View) (rowLimit : Nat) : Planner :=
  ⟨view, rowLimit, .none⟩

def query (planner : Planner) : String :=
  planner.view.query

/-- A ticket is issued only if the variables can be built. -/
def prepare (planner : Planner) (states : FormStates) (cursor : Option Json) :
    Except ViewError (PreparedRequest × Planner) := do
  let queryVariables ← planner.view.queryVariables states planner.rowLimit cursor
  let (ticket, generation) := planner.generation.begin
  return (⟨ticket, planner.query, queryVariables⟩, { planner with generation })

def page (planner : Planner) (response : Json) : Page :=
  let rawRows := response.rows planner.view.collection
  ⟨rawRows.map (Column.cells planner.view.columns), rawRows,
    nextCursor? rawRows planner.view.paginationKey planner.rowLimit⟩

def receive (planner : Planner) (ticket : Ticket) (response : Json) : Settled Page :=
  planner.generation.settle ticket (planner.page response)

end Planner

end GridQuery
