import GridQuery.Query.Request

/-!
Response rows: where they stand in a response, what each column shows of a row, and the value that
the next page starts from.
-/

namespace GridQuery

/-- The members of a row that a column shows, by response key. -/
abbrev Cell := List (String × Json)

/-- The cells of a row, by column id. -/
abbrev RowCells := List (String × Cell)

namespace FieldRequest

/-- The key and the value that a request finds in a row. A renamed request goes by its new name if
the row has that, and by its old one otherwise. -/
def found? (row : List (String × Json)) : FieldRequest → Option (String × Json)
  | .renamed name request =>
    match Named.find? name row with
    | some value => some (name, value)
    | none => found? row request
  | request => do
    let key ← request.rootKey
    let value ← Named.find? key row
    return (key, value)

end FieldRequest

namespace Column

def cell (column : Column) (row : List (String × Json)) : Cell :=
  Named.ofList (column.requests.filterMap (FieldRequest.found? row))

/-- The cells of a row for all columns. A row that is no object has empty cells. -/
def cells (columns : List Column) (row : Json) : RowCells :=
  let members :=
    match row with
    | .object members => members
    | _ => []
  Named.ofList (columns.map fun column => (column.id, column.cell members))

end Column

def RowCells.toJson (cells : RowCells) : Json :=
  .object (cells.map fun entry => (entry.1, .object entry.2))

namespace Json

/-- What lies at the end of a chain of members. -/
def atSegments? (value : Json) : List String → Option Json
  | [] => some value
  | segment :: rest =>
    match value.get? segment with
    | some inner => atSegments? inner rest
    | none => none

def atPath? (value : Json) (path : String) : Option Json :=
  value.atSegments? (Path.ofString path).segments

/-- The rows of a collection, under `data` or at the top of the response. Anything but a list is
no rows. -/
def rows (response : Json) (collection : String) : List Json :=
  let nested := (response.get? "data").bind (get? collection)
  match nested.or (response.get? collection) with
  | some (.array rows) => rows
  | _ => []

end Json

/-- The key of the last row of a full page, unless it is null. -/
def nextCursor? (rows : List Json) (paginationKey : String) (rowLimit : Nat) : Option Json :=
  if rows.length < rowLimit then none
  else
    match rows.getLast?.bind fun row => row.atPath? paginationKey with
    | some .null => none
    | cursor => cursor

end GridQuery
