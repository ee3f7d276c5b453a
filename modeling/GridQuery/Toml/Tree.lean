import GridQuery.Named

/-!
TOML documents: trees of named tables, built one header and one key at a time. A table remembers
how it came about, because that decides whether later lines may add to it.
-/

namespace GridQuery.Toml

inductive TableOrigin where
  | header
  | implied
  | dotted
  | closed
deriving DecidableEq

inductive Node where
  | text (value : String)
  | integer (value : Int)
  | otherScalar
  | array (items : List Node)
  | table (origin : TableOrigin) (entries : List (String × Node))
  | tables (earlier : List (List (String × Node))) (last : List (String × Node))

abbrev Entries := List (String × Node)

/-- Changes the table at the end of a path and makes the tables on the way that are missing. Dotted
keys do not enter tables that have a header of their own. -/
def descend (dotted : Bool) (change : TableOrigin → Entries → Option Entries) :
    List String → TableOrigin → Entries → Option Entries
  | [], origin, entries => change origin entries
  | key :: rest, _, entries =>
    match Named.find? key entries with
    | none => do
      let origin := if dotted then .dotted else .implied
      let inner ← descend dotted change rest origin []
      return Named.insert key (.table origin inner) entries
    | some (.table origin inner) =>
      if origin = .closed ∨ (dotted ∧ origin = .header) then none
      else do
        let inner ← descend dotted change rest origin inner
        return Named.insert key (.table origin inner) entries
    | some (.tables earlier last) => do
      let last ← descend dotted change rest .header last
      return Named.insert key (.tables earlier last) entries
    | some _ => none

/-- Adds a key that is not there yet. -/
def addKey (key : String) (value : Node) (entries : Entries) : Option Entries :=
  match Named.find? key entries with
  | none => some (Named.insert key value entries)
  | some _ => none

/-- Adds a value under a dotted key. Only tables made by dotted keys may be added to this way. -/
def assign (path : List String) (key : String) (value : Node) (entries : Entries) :
    Option Entries :=
  descend true
    (fun origin inner => if path.isEmpty ∨ origin = .dotted then addKey key value inner else none)
    path .header entries

/-- Opens a table by its header. A table that is only implied by others may still get one. -/
def openTable (key : String) (entries : Entries) : Option Entries :=
  match Named.find? key entries with
  | none => some (Named.insert key (.table .header []) entries)
  | some (.table .implied inner) => some (Named.insert key (.table .header inner) entries)
  | some _ => none

/-- Opens the next table of an array of tables. -/
def openRow (key : String) (entries : Entries) : Option Entries :=
  match Named.find? key entries with
  | none => some (Named.insert key (.tables [] []) entries)
  | some (.tables earlier last) => some (Named.insert key (.tables (earlier ++ [last]) []) entries)
  | some _ => none

end GridQuery.Toml
