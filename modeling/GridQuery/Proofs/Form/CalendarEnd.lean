import GridQuery.Proofs.Form.DateInstant
import GridQuery.Proofs.Form.Readable

/-!
The end of the calendar. Reading dates, saving and loading break off at a date-time that falls after
the last year in UTC, and at nothing else; a number of that size is no date.
-/

namespace GridQuery

open Calendar (Instant DateTimeAt)

namespace Json

/-- A date-time after the last year of the calendar in UTC. -/
def PastCalendar (value : Json) : Prop :=
  ∃ text instant, value = .string text ∧ DateTimeAt text.toList instant ∧ instant.AfterYear 9999

variable {value part : Json} {field : String}

theorem pastCalendar_iff :
    value.PastCalendar ↔ Instant.ofJson? value = .error .beyondCalendar := by
  rw [Instant.ofJson?_eq_error_iff, PastCalendar]
  exact (and_iff_right rfl).symm

/-- A value is read, as a date or as none, unless it is past the calendar. -/
theorem returns_iff : (∃ date, canonicalDate? value = .ok date) ↔ ¬ value.PastCalendar := by
  cases read : canonicalDate? value with
  | ok date =>
    refine iff_of_true ⟨date, rfl⟩ fun past => ?_
    cases read.symm.trans (canonicalDate?_eq_error_iff.mpr ⟨rfl, past⟩)
  | error error =>
    refine iff_of_false nofun (not_not_intro ?_)
    exact (canonicalDate?_eq_error_iff.mp read).2

theorem FirstUnread.pastCalendar_iff (first : FirstUnread part value) :
    part.normalizeDates .strict field = .error .beyondCalendar ↔ part.PastCalendar := by
  rw [normalizeDates_single_eq_error first.single, Json.pastCalendar_iff]
  refine or_iff_left fun undated => ?_
  obtain ⟨_, _, _, other⟩ := undated
  cases other

/-- A number stands for an instant, but is read only if the calendar covers this. -/
theorem canonicalDate?_number {number : Number} {instant : Instant}
    (stands : (Json.number number).IsDateAt instant) (outside : ¬ instant.InYears (-9999) 9999) :
    canonicalDate? (.number number) = .ok none := by
  cases read : canonicalDate? (.number number) with
  | error error =>
    obtain ⟨_, text, _, isText, _⟩ := canonicalDate?_eq_error_iff.mp read
    cases isText
  | ok canonical =>
    cases canonical with
    | none => rfl
    | some canonical =>
      obtain ⟨other, stands', years, _⟩ := canonicalDate?_eq_some_iff.mp read
      rw [stands'.unique stands] at years
      exact absurd years outside

end Json

namespace FilterLeaf

/-- The leaf has a date path, and some part of its date part is after the calendar. -/
def PastCalendar (schema : FilterSchema) (leaf : FilterLeaf) (value : Json) : Prop :=
  ∃ path ∈ leaf.target.paths, schema.IsDatePath path ∧
    ∃ part, Json.HasPart part (leaf.datePart value) ∧ part.PastCalendar

variable {schema : FilterSchema} {leaf : FilterLeaf} {value : Json}

theorem pastCalendar_iff : leaf.PastCalendar schema value ↔ ¬ leaf.InCalendar schema value := by
  unfold PastCalendar InCalendar Json.InCalendar
  push Not
  simp only [Json.pastCalendar_iff]

end FilterLeaf

namespace FormStates

variable {schema : FilterSchema} {states : FormStates} {document : Json}

theorem checkShapes_ne_beyondCalendar : checkShapes schema states ≠ .error .beyondCalendar := by
  intro failed
  cases isShapeFault_of_checkShapes failed

/-- Saving breaks off if some leaf that is met is past the calendar. -/
theorem save_eq_beyondCalendar_iff : states.save schema = .error .beyondCalendar ↔
    ∃ pair ∈ metLeaves schema states, pair.1.PastCalendar schema pair.2 := by
  have traverses := normalize_traverses .lenient schema states
  have whole : states.save schema = .error .beyondCalendar ↔
      normalize .lenient schema states = .error .beyondCalendar :=
    bind_error_iff_of_complete fun _ => ⟨_, rfl⟩
  rw [whole]
  constructor
  · intro failed
    obtain ⟨before, pair, after, split, _, raised⟩ :=
      (traverses.leaf_error_iff checkShapes_ne_beyondCalendar).mp failed
    have member : pair ∈ metLeaves schema states := by
      rw [split]
      exact List.mem_append_cons_self
    refine ⟨pair, member, FilterLeaf.pastCalendar_iff.mpr fun within => ?_⟩
    obtain ⟨kept, normal⟩ := FilterLeaf.exists_saved_iff.mpr within
    cases raised.symm.trans normal
  · intro ⟨pair, member, past⟩
    have refused : ¬ ∀ pair ∈ metLeaves schema states,
        ∃ result, normalizeLeaf .lenient schema.datePaths pair.1 pair.2 = .ok result := by
      intro handled
      obtain ⟨result, normal⟩ := handled pair member
      obtain ⟨kept, rfl⟩ := FilterLeaf.normalizeLeaf_eq_leaf normal
      exact FilterLeaf.pastCalendar_iff.mp past (FilterLeaf.exists_saved_iff.mp ⟨kept, normal⟩)
    obtain ⟨error, failed, _, _, raised⟩ := traverses.exists_handled_error refused
    obtain ⟨_, _, _, raised⟩ := FilterLeaf.normalizeLeaf_eq_error raised
    obtain ⟨_, _, beyond⟩ := Json.normalizeDates_error raised
    rwa [Instant.ofJson?_error beyond] at failed

/-- Loading breaks off if the first date that cannot be read is past the calendar. -/
theorem load_eq_beyondCalendar_iff : load schema document = .error .beyondCalendar ↔
    ∃ states, ofJson document = .ok states ∧
      ∃ field part, states.FirstUnread schema field part ∧ part.PastCalendar := by
  have readable : ∀ fault, ViewError.beyondCalendar ≠ .unreadable fault := nofun
  have other : ¬ ViewError.beyondCalendar.IsShapeFault := nofun
  rw [load_eq_error_iff readable]
  simp only [normalize_strict_eq_error_iff other]
  constructor
  · intro ⟨states, read, field, part, first, failed⟩
    obtain ⟨value, unread⟩ := first.exists_value
    exact ⟨states, read, field, part, first, unread.pastCalendar_iff.mp failed⟩
  · intro ⟨states, read, field, part, first, past⟩
    obtain ⟨value, unread⟩ := first.exists_value
    exact ⟨states, read, field, part, first, unread.pastCalendar_iff.mpr past⟩

/-- Reading a value comes to an end unless it is a date-time after the calendar. What is read stands
for an instant of the calendar, and a number outside it is no date. Saving and loading break off at
date-times after the calendar only. -/
theorem datesBreakOff_iff (value : Json) (schema : FilterSchema) (states : FormStates)
    (document : Json) :
    ((∃ date, canonicalDate? value = .ok date) ↔ ¬ value.PastCalendar) ∧
    (∀ canonical, canonicalDate? value = .ok (some canonical) ↔ ∃ instant,
      value.IsDateAt instant ∧ instant.InYears (-9999) 9999 ∧ canonical = .string instant.text) ∧
    (∀ number instant, value = .number number → value.IsDateAt instant →
      ¬ instant.InYears (-9999) 9999 → canonicalDate? value = .ok none) ∧
    (states.save schema = .error .beyondCalendar ↔
      ∃ pair ∈ metLeaves schema states, pair.1.PastCalendar schema pair.2) ∧
    (load schema document = .error .beyondCalendar ↔ ∃ states, ofJson document = .ok states ∧
      ∃ field part, states.FirstUnread schema field part ∧ part.PastCalendar) := by
  refine ⟨Json.returns_iff, fun _ => canonicalDate?_eq_some_iff, ?_, save_eq_beyondCalendar_iff,
    load_eq_beyondCalendar_iff⟩
  intro number instant isNumber stands outside
  rw [isNumber] at stands ⊢
  exact Json.canonicalDate?_number stands outside

/-- The last minute of the calendar, a minute behind UTC. -/
def lastMinute : Json :=
  .string "9999-12-31T23:59:59-00:01"

def lastMinuteStates : FormStates :=
  [("day", .leaf lastMinute)]

/-- The millisecond after the calendar. -/
def firstMillis : Int :=
  253402300800000

theorem lastMinute_breaksOff :
    (∃ states, ofJson lastMinuteStates.toJson = .ok states ∧
        ∃ field part, states.FirstUnread daySchema field part ∧ part.PastCalendar) ∧
      (Json.int firstMillis).IsDateAt (.ofMillis firstMillis) ∧
      ¬ (Instant.ofMillis firstMillis).InYears (-9999) 9999 ∧
      canonicalDate? (.int firstMillis) = .ok none := by
  obtain ⟨_, _, _, _, loads⟩ := datesBreakOff_iff lastMinute daySchema [] lastMinuteStates.toJson
  obtain ⟨_, _, numbers, _⟩ := datesBreakOff_iff (.int firstMillis) daySchema [] .null
  have outside : ¬ (Instant.ofMillis firstMillis).InYears (-9999) 9999 := by
    rw [Instant.inYears_iff]
    decide
  exact ⟨loads.mp rfl, .millis firstMillis, outside, numbers _ _ rfl (.millis firstMillis) outside⟩

/-- The date-time can be entered, and then the form can be neither saved nor loaded. -/
theorem lastMinute_aborts :
    canonicalDate? lastMinute = .error .beyondCalendar ∧
      lastMinuteStates.save daySchema = .error .beyondCalendar ∧
      load daySchema lastMinuteStates.toJson = .error .beyondCalendar :=
  ⟨rfl, rfl, rfl⟩

end FormStates

end GridQuery
