import GridQuery.Condition.Equality
import GridQuery.Query.Request

/-!
Selection sets: trees of requested fields with their arguments. Items with the same target are one
request; merging a list of items keeps the first of them in place and lets arguments that a later
one sets replace the earlier ones.
-/

namespace GridQuery

structure Selection where
  field : String
  name : Option String
  path : Option String
  filter : Option Condition
  orderBy : Option (List OrderTerm)
  limit : Option Nat
  offset : Option Nat
  distinctOn : Option (List String)
  selections : List Selection

namespace Selection

def plain (field : String) : Selection :=
  ⟨field, none, none, none, none, none, none, none, []⟩

def ofHop (hop : Hop) : Selection :=
  ⟨hop.field, none, hop.path, hop.filter, hop.orderBy, hop.limit, hop.offset, hop.distinctOn, []⟩

/-- The key under which the response holds this item. -/
def responseKey (item : Selection) : String :=
  item.name.getD item.field

def hasArguments (item : Selection) : Bool :=
  item.filter.isSome || item.orderBy.isSome || item.distinctOn.isSome || item.limit.isSome ||
    item.offset.isSome || item.path.isSome

def sameFilter : Option Condition → Option Condition → Bool
  | none, none => true
  | some left, some right => left.same right
  | _, _ => false

/-- Filters count as equal whatever the order of their parts. -/
def sameTarget (left right : Selection) : Bool :=
  left.field = right.field && left.name = right.name && left.path = right.path &&
    sameFilter left.filter right.filter

/-- Hangs each item under the one before it. -/
def link (last : Selection) : List Selection → Selection
  | [] => last
  | next :: rest => { last with selections := [link next rest] }

def ofPath (path : String) : Selection :=
  let path := Path.ofString path
  link (plain path.first) (path.rest.map plain)

mutual

/-- Names the item at the end of the last branch. -/
def nameLast (name : String) : Selection → Selection
  | ⟨field, own, path, filter, orderBy, limit, offset, distinctOn, selections⟩ =>
    ⟨field, if selections.isEmpty then some name else own, path, filter, orderBy, limit, offset,
      distinctOn, nameLastOf name selections⟩

def nameLastOf (name : String) : List Selection → List Selection
  | [] => []
  | [item] => [nameLast name item]
  | item :: next :: rest => item :: nameLastOf name (next :: rest)

end

/-- Whether a new name belongs to the end of the chain, not to its start. -/
def namesEnd : FieldRequest → Bool
  | .field _ => true
  | .hops _ => false
  | .renamed _ request => namesEnd request

/-- The item that a request stands for; an empty chain of hops stands for none. -/
def ofRequest? : FieldRequest → Option Selection
  | .field path => some (ofPath path)
  | .hops [] => none
  | .hops (hop :: rest) => some (link (ofHop hop) (rest.map ofHop))
  | .renamed name request =>
    (ofRequest? request).map fun item =>
      if namesEnd request then nameLast name item else { item with name := some name }

mutual

/-- The number of levels of an item. -/
def height : Selection → Nat
  | ⟨_, _, _, _, _, _, _, _, selections⟩ => levels selections + 1

def levels : List Selection → Nat
  | [] => 0
  | item :: rest => max (height item) (levels rest)

end

mutual

/-- The number of items in an item. -/
def nodes : Selection → Nat
  | ⟨_, _, _, _, _, _, _, _, selections⟩ => nodesOfList selections + 1

def nodesOfList : List Selection → Nat
  | [] => 0
  | item :: rest => nodes item + nodesOfList rest

end

/-- Takes over the arguments that `other` sets and merges its selections in. -/
def absorb (merge : List Selection → List Selection) (item other : Selection) : Selection :=
  { item with
    orderBy := other.orderBy.or item.orderBy
    limit := other.limit.or item.limit
    offset := other.offset.or item.offset
    distinctOn := other.distinctOn.or item.distinctOn
    selections := merge (item.selections ++ other.selections) }

/-- Lets the first item with the same target absorb the new one, or puts it at the end. -/
def place (merge : List Selection → List Selection) (item : Selection) :
    List Selection → List Selection
  | [] => [{ item with selections := merge item.selections }]
  | existing :: rest =>
    if existing.sameTarget item then existing.absorb merge item :: rest
    else existing :: place merge item rest

/-- Merges a list of items of at most the given number of levels. -/
def mergeLevels : Nat → List Selection → List Selection
  | 0, _ => []
  | below + 1, items => items.foldl (fun merged item => place (mergeLevels below) item merged) []

def merge (items : List Selection) : List Selection :=
  mergeLevels (levels items) items

/-- The merged items of all requests of the columns. -/
def ofColumns (columns : List Column) : List Selection :=
  merge (columns.flatMap fun column => column.requests.filterMap ofRequest?)

def isPlain (field : String) (item : Selection) : Bool :=
  item.name.isNone && item.field = field && !item.hasArguments

def containsSegments (first : String) (rest : List String) (items : List Selection) : Bool :=
  match items.find? (isPlain first), rest with
  | none, _ => false
  | some _, [] => true
  | some found, second :: more => containsSegments second more found.selections
termination_by structural rest

/-- Whether the path is selected without new names and arguments. -/
def containsPath (items : List Selection) (path : String) : Bool :=
  containsSegments (Path.ofString path).first (Path.ofString path).rest items

/-- The items with the path among them. -/
def ensurePath (items : List Selection) (path : String) : List Selection :=
  if containsPath items path then items else merge (items ++ [ofPath path])

end Selection

end GridQuery
