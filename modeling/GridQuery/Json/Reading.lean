import GridQuery.Error

/-!
Typed reading of JSON. An object is read member by member in written order into a draft of optional
slots: the first unreadable member is the fault, a slot filled twice is a fault, and an empty slot
is noticed last. Members with unknown names are passed over.
-/

namespace GridQuery

abbrev Read (α : Type) := Except ReadFault α

namespace Read

variable {α : Type}

def string : Json → Read String
  | .string text => .ok text
  | _ => .error .malformed

def bool : Json → Read Bool
  | .bool value => .ok value
  | _ => .error .malformed

/-- A non-negative integer. -/
def natural : Json → Read Nat
  | .number (.integer (.ofNat value)) => .ok value
  | _ => .error .malformed

/-- Any number, as the nearest double. -/
def double : Json → Read Binary64
  | .number (.double value) => .ok value
  | .number (.integer value) =>
    match Binary64.ofInt? value with
    | some value => .ok value
    | none => .error .malformed
  | _ => .error .malformed

/-- Any value, as the value that the document stands for. -/
def value (document : Json) : Read Json :=
  .ok document.canonical

/-- Null counts as absent. -/
def nullable (read : Json → Read α) : Json → Read (Option α)
  | .null => .ok none
  | document => (read document).map some

def list (read : Json → Read α) : Json → Read (List α)
  | .array items => items.mapM read
  | _ => .error .malformed

def members : Json → Read (List (String × Json))
  | .object members => .ok members
  | _ => .error .malformed

def fill (slot : Option α) (read : Read α) : Read (Option α) :=
  match slot with
  | some _ => .error .malformed
  | none => read.map some

def required : Option α → Read α
  | some value => .ok value
  | none => .error .malformed

/-- The text under `type`, which tells the variants of a type apart. -/
def tag (members : List (String × Json)) : Read String :=
  match members.filter (fun member => member.1 = "type") with
  | [(_, .string text)] => .ok text
  | _ => .error .malformed

end Read

end GridQuery
