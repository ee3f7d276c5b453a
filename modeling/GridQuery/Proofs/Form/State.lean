import GridQuery.Form.State
import GridQuery.Proofs.Json.Canonical
import GridQuery.Proofs.Outcome

/-!
Form states are read back from what they are written as, with the values of their leaves in
canonical form.
-/

namespace GridQuery

namespace FormState

mutual

/-- Every leaf holds a value, not merely a document that stands for one. -/
def Canonical : FormState → Prop
  | .leaf value => value.Canonical
  | .and children => AllCanonical children
  | .or children => AllCanonical children
  | .not child => child.Canonical

def AllCanonical : List FormState → Prop
  | [] => True
  | child :: rest => child.Canonical ∧ AllCanonical rest

end

mutual

/-- The state with the values that the documents in its leaves stand for. -/
def canonical : FormState → FormState
  | .leaf value => .leaf value.canonical
  | .and children => .and (canonicalList children)
  | .or children => .or (canonicalList children)
  | .not child => .not child.canonical

def canonicalList : List FormState → List FormState
  | [] => []
  | child :: rest => child.canonical :: canonicalList rest

end

mutual

theorem Canonical.canonical_eq : ∀ {state : FormState}, state.Canonical → state.canonical = state
  | .leaf _, ordered => congrArg leaf (Json.Canonical.canonical_eq ordered)
  | .and _, ordered => congrArg FormState.and (AllCanonical.canonicalList_eq ordered)
  | .or _, ordered => congrArg FormState.or (AllCanonical.canonicalList_eq ordered)
  | .not child, ordered => by
    have inner : child.Canonical := ordered
    exact congrArg FormState.not inner.canonical_eq

theorem AllCanonical.canonicalList_eq :
    ∀ {children : List FormState}, AllCanonical children → canonicalList children = children
  | [], _ => rfl
  | child :: rest, ⟨first, later⟩ => by
    rw [canonicalList, first.canonical_eq, later.canonicalList_eq]

end

theorem ofJson_leaf (value : Json) : ofJson (leaf value).toJson = .ok (.leaf value.canonical) :=
  rfl

theorem ofJson_and (children : List FormState) :
    ofJson (FormState.and children).toJson = (ofItems (listToJson children)).map .and := by
  cases read : ofItems (listToJson children) <;>
    simp [toJson, ofJson, Read.tag, kindOfTag?, ofMembers, ofList, read, Read.fill, Read.required,
      Draft.finish, bind, Except.bind, pure, Except.pure, Except.map]

theorem ofJson_or (children : List FormState) :
    ofJson (FormState.or children).toJson = (ofItems (listToJson children)).map .or := by
  cases read : ofItems (listToJson children) <;>
    simp [toJson, ofJson, Read.tag, kindOfTag?, ofMembers, ofList, read, Read.fill, Read.required,
      Draft.finish, bind, Except.bind, pure, Except.pure, Except.map]

theorem ofJson_not (child : FormState) :
    ofJson child.not.toJson = (ofJson child.toJson).map .not := by
  cases read : ofJson child.toJson <;>
    simp [toJson, ofJson, Read.tag, kindOfTag?, ofMembers, read, Read.fill, Read.required,
      Draft.finish, bind, Except.bind, pure, Except.pure, Except.map]

mutual

theorem ofJson_toJson : ∀ state : FormState, ofJson state.toJson = .ok state.canonical
  | .leaf value => ofJson_leaf value
  | .and children => by
    rw [ofJson_and, ofItems_listToJson children]
    rfl
  | .or children => by
    rw [ofJson_or, ofItems_listToJson children]
    rfl
  | .not child => by
    rw [ofJson_not, ofJson_toJson child]
    rfl

theorem ofItems_listToJson : ∀ children : List FormState,
    ofItems (listToJson children) = .ok (canonicalList children)
  | [] => rfl
  | child :: rest => by
    rw [listToJson, ofItems, ofJson_toJson child, ofItems_listToJson rest]
    rfl

end

end FormState

namespace FormStates

def Canonical (states : FormStates) : Prop :=
  ∀ entry ∈ states, entry.2.Canonical

def canonical (states : FormStates) : FormStates :=
  states.map fun entry => (entry.1, entry.2.canonical)

theorem Canonical.canonical_eq {states : FormStates} (ordered : states.Canonical) :
    states.canonical = states := by
  induction states with
  | nil => rfl
  | cons entry rest ih =>
    obtain ⟨first, later⟩ := List.forall_mem_cons.mp ordered
    have same : canonical rest = rest := ih later
    rw [canonical] at same ⊢
    rw [List.map_cons, first.canonical_eq, same]

/-- What states are written as is read as the states in canonical form. -/
theorem ofJson_toJson (states : FormStates) : ofJson states.toJson = .ok states.canonical := by
  change ofMembers _ = _
  induction states with
  | nil => rfl
  | cons entry rest ih =>
    rw [List.map_cons, ofMembers, FormState.ofJson_toJson entry.2, ih]
    rfl

end FormStates

end GridQuery
