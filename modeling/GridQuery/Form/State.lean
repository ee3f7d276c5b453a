import GridQuery.Json.Reading

/-!
Form states: the values of a filter's inputs, in a tree like that of its expression. The states of
several filters are kept by filter id, in ascending order.
-/

namespace GridQuery

inductive FormState where
  | leaf (value : Json)
  | and (children : List FormState)
  | or (children : List FormState)
  | not (child : FormState)

abbrev FormStates := List (String × FormState)

namespace FormState

instance : Inhabited FormState := ⟨.leaf .null⟩

def kind : FormState → NodeKind
  | .leaf _ => .leaf
  | .and _ => .and
  | .or _ => .or
  | .not _ => .not

mutual

def toJson : FormState → Json
  | .leaf value => .object [("type", .string "leaf"), ("value", value)]
  | .and children =>
    .object [("children", .array (listToJson children)), ("type", .string "and")]
  | .or children =>
    .object [("children", .array (listToJson children)), ("type", .string "or")]
  | .not child => .object [("child", child.toJson), ("type", .string "not")]

def listToJson : List FormState → List Json
  | [] => []
  | state :: rest => state.toJson :: listToJson rest

end

def kindOfTag? (tag : String) : Option NodeKind :=
  if tag = "leaf" then some .leaf
  else if tag = "and" then some .and
  else if tag = "or" then some .or
  else if tag = "not" then some .not
  else none

structure Draft where
  value : Option Json := none
  children : Option (List FormState) := none
  child : Option FormState := none

/-- A leaf without a value holds null. -/
def Draft.finish (draft : Draft) : NodeKind → Read FormState
  | .leaf => .ok (.leaf (draft.value.getD .null))
  | .and => (Read.required draft.children).map .and
  | .or => (Read.required draft.children).map .or
  | .not => (Read.required draft.child).map .not

mutual

def ofJson : Json → Read FormState
  | .object members => do
    let tag ← Read.tag members
    let kind ← Read.required (kindOfTag? tag)
    let draft ← ofMembers kind {} members
    draft.finish kind
  | _ => .error .malformed
termination_by structural document => document

def ofMembers (kind : NodeKind) (draft : Draft) : List (String × Json) → Read Draft
  | [] => .ok draft
  | (name, value) :: rest => do
    let next ←
      match kind with
      | .leaf =>
        if name = "value" then do
          pure { draft with value := ← Read.fill draft.value (Read.value value) }
        else pure draft
      | .not =>
        if name = "child" then do
          pure { draft with child := ← Read.fill draft.child (ofJson value) }
        else pure draft
      | _ =>
        if name = "children" then do
          pure { draft with children := ← Read.fill draft.children (ofList value) }
        else pure draft
    ofMembers kind next rest

def ofList : Json → Read (List FormState)
  | .array items => ofItems items
  | _ => .error .malformed

def ofItems : List Json → Read (List FormState)
  | [] => .ok []
  | item :: rest => do
    let first ← ofJson item
    let others ← ofItems rest
    return first :: others

end

end FormState

namespace FormStates

def toJson (states : FormStates) : Json :=
  .object (states.map fun entry => (entry.1, entry.2.toJson))

/-- Reads the states of a value, whose members are in order already. -/
def ofMembers : List (String × Json) → Read FormStates
  | [] => .ok []
  | (id, value) :: rest => do
    let state ← FormState.ofJson value
    let others ← ofMembers rest
    return (id, state) :: others

def ofJson (value : Json) : Read FormStates := do
  ofMembers (← Read.members value)

end FormStates

end GridQuery
