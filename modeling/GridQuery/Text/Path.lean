/-!
Dotted paths: a text splits at every dot into one or more segments, any of which may be empty, and
the segments joined by dots give the text again.
-/

namespace GridQuery

structure Path where
  first : String
  rest : List String
deriving DecidableEq

namespace Path

/-- The first segment and the others. -/
def splitDots : List Char → List Char × List (List Char)
  | [] => ([], [])
  | c :: text =>
    let (segment, others) := splitDots text
    if c = '.' then ([], segment :: others) else (c :: segment, others)

def ofString (text : String) : Path :=
  let (first, rest) := splitDots text.toList
  ⟨String.ofList first, rest.map String.ofList⟩

def segments (path : Path) : List String :=
  path.first :: path.rest

def joinDots : List Char → List (List Char) → List Char
  | first, [] => first
  | first, second :: rest => first ++ '.' :: joinDots second rest

def toString (path : Path) : String :=
  String.ofList (joinDots path.first.toList (path.rest.map String.toList))

end Path

end GridQuery
