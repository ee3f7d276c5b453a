import GridQuery.Form.Persistence
import GridQuery.Proofs.Outcome

/-!
What normalizing dates does to a value part by part: which parts are rewritten, which are refused on
loading, and which cannot even be saved.
-/

namespace GridQuery

open Calendar (Instant)

/-- Only an instant after the calendar keeps a value from being read. -/
theorem Calendar.Instant.ofJson?_error {value : Json} {error : ViewError}
    (failed : ofJson? value = .error error) : error = .beyondCalendar := by
  unfold ofJson? ofText? at failed
  split at failed
  next =>
    split at failed
    next =>
      split at failed
      next =>
        cases failed
        rfl
      next => cases failed
    next => cases failed
  next => cases failed
  next => cases failed
  next => cases failed

namespace Json

/-- The part is the value itself or stands somewhere in an array. -/
inductive HasPart (part : Json) : Json → Prop
  | whole : HasPart part part
  | item {items : List Json} {item : Json} (member : item ∈ items) (inner : HasPart part item) :
      HasPart part (.array items)

/-- Dates become their canonical text, arrays member by member; all else stays. -/
inductive Redated : Json → Json → Prop
  | date {value : Json} {instant : Instant} (read : Instant.ofJson? value = .ok (some instant)) :
      Redated value (.string instant.text)
  | other {value : Json} (single : value.isArray = false)
      (unread : Instant.ofJson? value = .ok none) : Redated value value
  | array {items others : List Json} (each : List.Forall₂ Redated items others) :
      Redated (.array items) (.array others)

/-- Neither blank nor a date nor an array, which is refused where dates are loaded. -/
def Undated (value : Json) : Prop :=
  value.isArray = false ∧ value.isBlank = false ∧ Instant.ofJson? value = .ok none

/-- No part is a date-time after the calendar. -/
def InCalendar (value : Json) : Prop :=
  ∀ part, HasPart part value → Instant.ofJson? part ≠ .error .beyondCalendar

mutual

/-- Induction for what takes arrays apart and nothing else. -/
@[elab_as_elim]
theorem array_induction {motive : Json → Prop}
    (single : ∀ value : Json, value.isArray = false → motive value)
    (array : ∀ items, (∀ item ∈ items, motive item) → motive (.array items)) :
    ∀ value : Json, motive value
  | .array items => array items (items_induction single array items)
  | .null => single _ rfl
  | .bool _ => single _ rfl
  | .number _ => single _ rfl
  | .string _ => single _ rfl
  | .object _ => single _ rfl
termination_by structural value => value

theorem items_induction {motive : Json → Prop}
    (single : ∀ value : Json, value.isArray = false → motive value)
    (array : ∀ items, (∀ item ∈ items, motive item) → motive (.array items)) :
    ∀ items : List Json, ∀ item ∈ items, motive item
  | [] => nofun
  | item :: rest => List.forall_mem_cons.mpr
    ⟨array_induction single array item, items_induction single array rest⟩

end

variable {value kept part : Json} {mode : DateMode} {field : String} {items : List Json}
  {error : ViewError}

theorem ofJson?_of_isBlank (blank : value.isBlank = true) :
    Instant.ofJson? value = .ok none := by
  cases value with
  | string text =>
    rw [String.isEmpty_iff.mp blank]
    rfl
  | null | array items => rfl
  | bool _ | number _ | object _ => cases blank

/-- A value that is no array becomes the text of its date; without a date it is kept, but only
blanks are loaded so. -/
theorem normalizeDates_single (single : value.isArray = false) :
    value.normalizeDates mode field = Instant.ofJson? value >>= fun date => date.elim
      (if mode = .strict ∧ value.isBlank = false then .error (.invalidDate field value)
        else .ok value)
      fun instant => .ok (.string instant.text) := by
  unfold Json.normalizeDates
  split
  next items => cases single
  next => cases mode <;> rfl
  next =>
    cases blank : value.isBlank with
    | true =>
      rw [ofJson?_of_isBlank blank]
      cases mode <;> rfl
    | false =>
      rw [canonicalDate?]
      cases Instant.ofJson? value with
      | error error => rfl
      | ok instant =>
        cases instant with
        | some instant => rfl
        | none => cases mode <;> rfl

theorem normalizeDates_single_eq_ok (single : value.isArray = false) :
    value.normalizeDates mode field = .ok kept ↔
      (∃ instant, Instant.ofJson? value = .ok (some instant) ∧ .string instant.text = kept) ∨
        Instant.ofJson? value = .ok none ∧ (mode = .strict → value.isBlank = true) ∧
          value = kept := by
  rw [normalizeDates_single single]
  cases Instant.ofJson? value with
  | error error => simp [bind, Except.bind]
  | ok instant =>
    cases instant with
    | some instant => simp [bind, Except.bind]
    | none => cases mode <;> cases value.isBlank <;> simp [bind, Except.bind]

theorem normalizeDates_single_eq_error (single : value.isArray = false) :
    value.normalizeDates mode field = .error error ↔
      Instant.ofJson? value = .error error ∨
        Instant.ofJson? value = .ok none ∧ mode = .strict ∧ value.isBlank = false ∧
          .invalidDate field value = error := by
  rw [normalizeDates_single single]
  cases Instant.ofJson? value with
  | error error => simp [bind, Except.bind]
  | ok instant =>
    cases instant with
    | some instant => simp [bind, Except.bind]
    | none => cases mode <;> cases value.isBlank <;> simp [bind, Except.bind]

theorem normalizeDateItems_eq_mapM :
    normalizeDateItems mode field items = items.mapM (normalizeDates mode field) := by
  induction items with
  | nil => rfl
  | cons item rest ih => rw [normalizeDateItems, ih, List.mapM_cons]

theorem normalizeDates_array_eq_ok : (array items).normalizeDates mode field = .ok kept ↔
    ∃ others, items.mapM (normalizeDates mode field) = .ok others ∧ kept = .array others := by
  rw [normalizeDates, map_eq_ok, normalizeDateItems_eq_mapM]
  simp only [eq_comm]

theorem normalizeDates_array_eq_error : (array items).normalizeDates mode field = .error error ↔
    items.mapM (normalizeDates mode field) = .error error := by
  rw [normalizeDates, normalizeDateItems_eq_mapM]
  cases items.mapM (normalizeDates mode field) <;> simp [Except.map]

theorem redated_of_normalizes (normal : value.normalizeDates mode field = .ok kept) :
    value.Redated kept := by
  induction value using array_induction generalizing kept with
  | single value single =>
    rcases (normalizeDates_single_eq_ok single).mp normal with ⟨_, read, rfl⟩ | ⟨unread, _, rfl⟩
    · exact .date read
    · exact .other single unread
  | array items ih =>
    obtain ⟨others, made, rfl⟩ := normalizeDates_array_eq_ok.mp normal
    exact .array (forall₂_of_mapM made fun item member _ => ih item member)

/-- A value fails because of a part that is no array. -/
theorem exists_part_of_error (failed : value.normalizeDates mode field = .error error) :
    ∃ part, HasPart part value ∧ part.isArray = false ∧
      part.normalizeDates mode field = .error error := by
  induction value using array_induction with
  | single value single => exact ⟨value, .whole, single, failed⟩
  | array items ih =>
    obtain ⟨item, member, raised⟩ :=
      exists_of_mapM_eq_error (normalizeDates_array_eq_error.mp failed)
    obtain ⟨part, inside, fails⟩ := ih item member raised
    exact ⟨part, .item member inside, fails⟩

/-- Only an instant after the calendar keeps a value from being saved. -/
theorem normalizeDates_error (failed : value.normalizeDates .lenient field = .error error) :
    ∃ part, HasPart part value ∧ Instant.ofJson? part = .error error := by
  obtain ⟨part, inside, single, failed⟩ := exists_part_of_error failed
  rcases (normalizeDates_single_eq_error single).mp failed with beyond | ⟨_, strict, _⟩
  · exact ⟨part, inside, beyond⟩
  · cases strict

theorem undated_of_invalid {path : String}
    (failed : value.normalizeDates mode field = .error (.invalidDate path part)) :
    path = field ∧ part.Undated ∧ HasPart part value := by
  obtain ⟨part', inside, single, failed⟩ := exists_part_of_error failed
  rcases (normalizeDates_single_eq_error single).mp failed with beyond | ⟨unread, _, filled, same⟩
  · cases Instant.ofJson?_error beyond
  · cases same
    exact ⟨rfl, ⟨single, filled, unread⟩, inside⟩

theorem ofJson?_of_normalizes (normal : value.normalizeDates mode field = .ok kept) :
    Instant.ofJson? value ≠ .error .beyondCalendar := by
  cases single : value.isArray with
  | true =>
    cases value with
    | array items => nofun
    | _ => cases single
  | false =>
    intro beyond
    rcases (normalizeDates_single_eq_ok single).mp normal with ⟨_, read, _⟩ | ⟨unread, _⟩
    · cases read.symm.trans beyond
    · cases unread.symm.trans beyond

/-- A value is saved exactly if no part of it is after the calendar. -/
theorem normalizes_lenient_iff :
    (∃ kept, value.normalizeDates .lenient field = .ok kept) ↔ value.InCalendar := by
  constructor
  · rintro ⟨kept, normal⟩ part inside
    induction inside generalizing kept with
    | whole => exact ofJson?_of_normalizes normal
    | item member inner ih =>
      obtain ⟨others, made, _⟩ := normalizeDates_array_eq_ok.mp normal
      obtain ⟨other, _, normal⟩ := mem_mapM_of_mem made member
      exact ih other normal
  · intro within
    cases normal : value.normalizeDates .lenient field with
    | ok kept => exact ⟨kept, rfl⟩
    | error error =>
      obtain ⟨part, inside, beyond⟩ := normalizeDates_error normal
      cases Instant.ofJson?_error beyond
      exact absurd beyond (within part inside)

end Json

end GridQuery
