import GridQuery.Json.Reading
import GridQuery.Proofs.Json.Canonical
import GridQuery.Proofs.Outcome

/-!
Readers beside writers. A reader is steady if whatever it reads from any document it reads again
from what that is written as. Steadiness passes from the reader of an element to that of a list, and
from the readers of the members to that of an object: reading fills the slots of a draft, and a
member that is left out leaves its slot empty.
-/

namespace GridQuery

theorem join_map_some {α : Type} (value : Option α) : (value.map some).join = value := by
  cases value <;> rfl

section

variable {ε σ α : Type} {step : σ → α → Except ε σ} {items : List α} {start result : σ}

/-- What each step preserves holds at the end. -/
theorem foldlM_preserves {P : σ → Prop} (made : items.foldlM step start = .ok result)
    (holds : P start) (each : ∀ item ∈ items, ∀ state next, P state → step state item = .ok next →
      P next) : P result := by
  induction items generalizing start with
  | nil =>
    cases made
    exact holds
  | cons item rest ih =>
    obtain ⟨here, later⟩ := List.forall_mem_cons.mp each
    rw [List.foldlM_cons] at made
    obtain ⟨next, taken, made⟩ := bind_eq_ok.mp made
    exact ih made (here start next holds taken) later

theorem mapM_map_of_each {β : Type} {f : β → Except ε α} {write : α → β}
    (each : ∀ item ∈ items, f (write item) = .ok item) :
    (items.map write).mapM f = .ok items := by
  rw [List.mapM_map]
  exact mapM_eq_self each

end

namespace Read

variable {α : Type} {read : Json → Read α} {write : α → Json}

theorem fill_eq_ok {slot filled : Option α} {outcome : Read α} :
    fill slot outcome = .ok filled ↔
      slot = none ∧ ∃ value, outcome = .ok value ∧ filled = some value := by
  cases slot with
  | none =>
    rw [fill, map_eq_ok]
    exact ⟨fun ⟨value, made, same⟩ => ⟨rfl, value, made, same.symm⟩,
      fun ⟨_, value, made, same⟩ => ⟨value, made, same.symm⟩⟩
  | some value => simp [fill]

theorem required_eq_ok {slot : Option α} {value : α} :
    required slot = .ok value ↔ slot = some value := by
  cases slot <;> simp [required]

theorem list_eq_ok {document : Json} {values : List α} :
    list read document = .ok values ↔
      ∃ items, document = .array items ∧ items.mapM read = .ok values := by
  cases document <;> simp [list]

theorem nullable_eq_some {document : Json} {value : α} :
    nullable read document = .ok (some value) ↔ document ≠ .null ∧ read document = .ok value := by
  cases document <;> simp [nullable, map_eq_ok]

theorem nullable_of_ok {document : Json} {value : α} (given : document ≠ .null)
    (made : read document = .ok value) : nullable read document = .ok (some value) :=
  nullable_eq_some.mpr ⟨given, made⟩

/-- What the reader reads is read again from its written form. -/
def Steady (read : Json → Read α) (write : α → Json) : Prop :=
  ∀ ⦃document value⦄, read document = .ok value → read (write value) = .ok value

/-- What the slot holds, if it holds anything, is read again from its written form. -/
def Settled (read : Json → Read α) (write : α → Json) (slot : Option α) : Prop :=
  ∀ value ∈ slot, read (write value) = .ok value

theorem settled_none : Settled read write none :=
  nofun

theorem settled_fill {slot filled : Option α} {document : Json}
    (again : ∀ value, read document = .ok value → read (write value) = .ok value)
    (made : Read.fill slot (read document) = .ok filled) : Settled read write filled := by
  obtain ⟨_, value, taken, rfl⟩ := fill_eq_ok.mp made
  rintro _ ⟨⟩
  exact again value taken

theorem Steady.fill (steady : Steady read write) {slot filled : Option α} {document : Json}
    (made : Read.fill slot (read document) = .ok filled) : Settled read write filled :=
  settled_fill (fun _ taken => steady taken) made

theorem Steady.fill_nullable (steady : Steady read write) {slot filled : Option (Option α)}
    {document : Json} (made : Read.fill slot (nullable read document) = .ok filled) :
    Settled read write filled.join := by
  obtain ⟨_, value, taken, rfl⟩ := fill_eq_ok.mp made
  rintro inner ⟨⟩
  exact steady (nullable_eq_some.mp taken).2

/-- Any value is read as the value it stands for, which stands for itself. -/
theorem steady_value : Steady value fun value => value := by
  rintro document _ ⟨⟩
  exact congrArg Except.ok (Json.canonical_canonical document).canonical_eq

theorem nullable_value {slot filled : Option (Option Json)} {document : Json}
    (made : Read.fill slot (nullable Read.value document) = .ok filled) :
    ∀ value ∈ filled.join, nullable Read.value value = .ok (some value) := by
  obtain ⟨_, _, taken, rfl⟩ := fill_eq_ok.mp made
  rintro value ⟨⟩
  obtain ⟨given, read⟩ := nullable_eq_some.mp taken
  refine nullable_of_ok ?_ (steady_value read)
  cases read
  cases document <;> simp_all [Json.canonical]

theorem Steady.list (steady : Steady read write) :
    Steady (list read) fun values => .array (values.map write) := by
  intro document values made
  obtain ⟨items, _, made⟩ := list_eq_ok.mp made
  refine mapM_map_of_each ?_
  intro value member
  obtain ⟨item, _, made⟩ := exists_of_mem_mapM made member
  exact steady made

/-- A slot for a list that is left empty counts as holding the empty list. -/
theorem Settled.getD {slot : Option (List α)}
    (settled : Settled (list read) (fun values => .array (values.map write)) slot) :
    list read (.array ((slot.getD []).map write)) = .ok (slot.getD []) := by
  cases slot with
  | none => rfl
  | some values => exact settled values rfl

/-- The list of all elements is read if each of them is. -/
theorem list_map_of_each {values : List α}
    (each : ∀ value ∈ values, read (write value) = .ok value) :
    list read (.array (values.map write)) = .ok values :=
  mapM_map_of_each each

theorem list_string (texts : List String) : list string (Json.strings texts) = .ok texts :=
  list_map_of_each fun _ _ => rfl

end Read

theorem Read.tag_optional {name : String} (other : name ≠ "type") (value : Option Json)
    (rest : List (String × Json)) : tag (Json.optional name value ++ rest) = tag rest := by
  cases value with
  | none => rfl
  | some value =>
    have passed : decide (name = "type") = false := decide_eq_false other
    simp only [tag, Json.optional, List.singleton_append, List.filter_cons, passed]
    rfl

section

variable {σ α : Type} {step : σ → String × Json → Read σ} {name : String}
  {rest : List (String × Json)} {result : Read σ}

theorem foldlM_member {value : Json} {state next : σ} (taken : step state (name, value) = .ok next)
    (later : rest.foldlM step next = result) :
    ((name, value) :: rest).foldlM step state = result := by
  rw [List.foldlM_cons, taken]
  exact later

/-- A member that is there fills its slot, one that is left out leaves it empty. -/
theorem foldlM_optional {write : α → Json} {value : Option α} (fill : Option (Option α) → σ)
    (taken : ∀ inner ∈ value, step (fill none) (name, write inner) = .ok (fill (some (some inner))))
    (later : rest.foldlM step (fill (value.map some)) = result) :
    (Json.optional name (value.map write) ++ rest).foldlM step (fill none) = result := by
  cases value with
  | none => exact later
  | some inner => exact foldlM_member (taken inner rfl) later

theorem foldlM_optional_last {write : α → Json} {value : Option α} (fill : Option (Option α) → σ)
    (taken : ∀ inner ∈ value, step (fill none) (name, write inner) =
      .ok (fill (some (some inner)))) :
    (Json.optional name (value.map write)).foldlM step (fill none) =
      .ok (fill (value.map some)) := by
  rw [← List.append_nil (Json.optional name _)]
  exact foldlM_optional fill taken rfl

end

end GridQuery
