/-!
Lists of named entries in ascending order of their names. Names are compared code point by code
point, which is also the byte order of their UTF-8 text.
-/

namespace GridQuery.Named

variable {α β : Type}

def find? (name : String) : List (String × α) → Option α
  | [] => none
  | (other, value) :: rest => if other = name then some value else find? name rest

/-- Puts `value` under `name`, in place of what stood there. -/
def insert (name : String) (value : α) : List (String × α) → List (String × α)
  | [] => [(name, value)]
  | (other, kept) :: rest =>
    if name < other then (name, value) :: (other, kept) :: rest
    else if name = other then (name, value) :: rest
    else (other, kept) :: insert name value rest

def erase (name : String) (entries : List (String × α)) : List (String × α) :=
  entries.filter (fun entry => entry.1 ≠ name)

/-- Of two entries with one name the later wins. -/
def ofList (entries : List (String × α)) : List (String × α) :=
  entries.foldl (fun table entry => insert entry.1 entry.2 table) []

def names (entries : List (String × α)) : List String :=
  entries.map Prod.fst

def Ascending (entries : List (String × α)) : Prop :=
  entries.Pairwise (fun first second => first.1 < second.1)

end GridQuery.Named
