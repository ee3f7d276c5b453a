import GridQuery.Json.Reading
import GridQuery.Text.Path

/-!
Orderings of rows by a field, which may lie at the end of a dotted path. The JSON form nests one
object per segment of the path around the direction.
-/

namespace GridQuery

inductive Direction where
  | asc
  | desc
  | ascNullsFirst
  | ascNullsLast
  | descNullsFirst
  | descNullsLast
deriving DecidableEq

namespace Direction

def all : List Direction :=
  [.asc, .desc, .ascNullsFirst, .ascNullsLast, .descNullsFirst, .descNullsLast]

def text : Direction → String
  | .asc => "ASC"
  | .desc => "DESC"
  | .ascNullsFirst => "ASC_NULLS_FIRST"
  | .ascNullsLast => "ASC_NULLS_LAST"
  | .descNullsFirst => "DESC_NULLS_FIRST"
  | .descNullsLast => "DESC_NULLS_LAST"

def upperAscii (text : String) : String :=
  String.ofList (text.toList.map Char.toUpper)

/-- The case of ASCII letters does not matter. -/
def ofText (text : String) : Except QueryFault Direction :=
  match all.find? fun direction => direction.text = upperAscii text with
  | some direction => .ok direction
  | none => .error (.direction text)

end Direction

structure OrderTerm where
  field : String
  direction : Direction
deriving DecidableEq

namespace OrderTerm

def nestSegments (value : Json) : String → List String → Json
  | last, [] => .single last value
  | first, second :: rest => .single first (nestSegments value second rest)

def toJson (term : OrderTerm) : Json :=
  let path := Path.ofString term.field
  nestSegments (.string term.direction.text) path.first path.rest

/-- The keys of a chain of objects with one member each, and the text at its end. -/
def chain? : Json → Option (List String × String)
  | .object [(name, inner)] => (chain? inner).map fun (names, text) => (name :: names, text)
  | .string text => some ([], text)
  | _ => none

def ofJson (value : Json) : Except QueryFault OrderTerm :=
  match chain? value with
  | some (first :: rest, text) =>
    (Direction.ofText text).map fun direction => ⟨Path.toString ⟨first, rest⟩, direction⟩
  | _ => .error (.ordering value)

end OrderTerm

def Read.orderTerm (document : Json) : Read OrderTerm :=
  (OrderTerm.ofJson document.canonical).mapError .query

end GridQuery
