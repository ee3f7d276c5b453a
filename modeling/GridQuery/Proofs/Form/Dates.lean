import GridQuery.Proofs.Calendar.Instant
import GridQuery.Proofs.Form.DateParts
import GridQuery.Proofs.Json.Canonical

/-!
Values that hold dates. The text of an instant of the years 0 to 9999 is its own canonical form, so
normalized dates are settled; the text of an earlier instant is not a date.
-/

namespace GridQuery

open Calendar (Instant)

namespace Calendar.Instant

variable {instant : Instant} {value : Json}

theorem ofEpochMillis?_before {millis : Int} (read : ofEpochMillis? millis = some instant) :
    instant.afterCalendar = false := by
  simp only [ofEpochMillis?] at read
  split at read
  next => cases read
  next within =>
    cases read
    exact Bool.eq_false_iff.mpr fun after => within (by rw [after, Bool.true_or])

theorem ofText?_before {text : String} (read : ofText? text = .ok (some instant)) :
    instant.afterCalendar = false := by
  rw [ofText?] at read
  split at read
  next found known =>
    split at read
    next => cases read
    next before =>
      cases read
      exact Bool.eq_false_iff.mpr before
  next => exact plainDate?_before (Except.ok.inj read)

/-- No value is read as an instant after the calendar. -/
theorem ofJson?_before (read : ofJson? value = .ok (some instant)) :
    instant.afterCalendar = false := by
  unfold ofJson? at read
  split at read
  next => exact ofText?_before read
  next => exact ofEpochMillis?_before (Except.ok.inj read)
  next => exact ofEpochMillis?_before (Except.ok.inj read)
  next => cases read

theorem text_cut (instant : Instant) : instant.cut.text = instant.text :=
  congrArg String.ofList instant.cut_chars

theorem ofJson?_text (begun : instant.FromYearZero)
    (before : instant.afterCalendar = false) :
    ofJson? (.string instant.text) = .ok (some instant.cut) := by
  rw [ofJson?, ofText?, text, String.toList_ofList, dateTime?_chars begun before]
  simp only [cut_not_afterCalendar before]
  rfl

theorem isBlank_text (instant : Instant) : (Json.string instant.text).isBlank = false := by
  refine Bool.eq_false_iff.mpr fun blank => ?_
  have empty : instant.text.toList = [] := congrArg String.toList (String.isEmpty_iff.mp blank)
  rw [text, String.toList_ofList] at empty
  exact List.concat_ne_nil _ _ empty

theorem ofJson?_text_early (early : ¬ instant.FromYearZero) :
    ofJson? (.string instant.text) = .ok none := by
  obtain ⟨noDateTime, noDate⟩ := chars_unreadable early
  rw [ofJson?, ofText?, text, String.toList_ofList, noDateTime, noDate]

end Calendar.Instant

namespace Json

/-- Blank, a date at an instant of the given kind, or an array of such values. -/
inductive DatesWithin (within : Instant → Prop) : Json → Prop
  | blank {value : Json} (blank : value.isBlank = true) : DatesWithin within value
  | date {value : Json} {instant : Instant} (read : Instant.ofJson? value = .ok (some instant))
      (inside : within instant) : DatesWithin within value
  | array {items : List Json} (each : ∀ item ∈ items, DatesWithin within item) :
      DatesWithin within (.array items)

/-- Normalizing keeps the value, whether it is saved or loaded. -/
def Settled (value : Json) : Prop :=
  ∀ mode field, value.normalizeDates mode field = .ok value

variable {value kept again : Json} {items : List Json} {mode : DateMode} {field : String}
  {within : Instant → Prop}

theorem normalizeDates_of_isBlank (blank : value.isBlank = true) :
    value.normalizeDates mode field = .ok value := by
  cases value with
  | array items =>
    obtain rfl : items = [] := List.isEmpty_iff.mp blank
    rfl
  | _ =>
    exact (normalizeDates_single_eq_ok rfl).mpr
      (.inr ⟨ofJson?_of_isBlank blank, fun _ => blank, rfl⟩)

theorem normalizeDates_of_date {instant : Instant}
    (read : Instant.ofJson? value = .ok (some instant)) :
    value.normalizeDates mode field = .ok (.string instant.text) := by
  have single : value.isArray = false := by
    cases value with
    | array items => cases read
    | _ => rfl
  exact (normalizeDates_single_eq_ok single).mpr (.inl ⟨instant, read, rfl⟩)

theorem settled_text {instant : Instant} (begun : instant.FromYearZero)
    (before : instant.afterCalendar = false) : (string instant.text).Settled := by
  intro mode field
  have read := Instant.ofJson?_text begun before
  rw [normalizeDates_of_date read, Instant.text_cut]

/-- Normalizing makes no objects. -/
theorem normalizeDates_eq_object {members : List (String × Json)}
    (normal : value.normalizeDates mode field = .ok (.object members)) :
    value = .object members := by
  cases redated_of_normalizes normal with
  | other => rfl

/-- The text of an instant before year 0 is refused on loading. -/
theorem normalizeDates_text_early {instant : Instant} (early : ¬ instant.FromYearZero) :
    (string instant.text).normalizeDates .strict field =
      .error (.invalidDate field (.string instant.text)) :=
  (normalizeDates_single_eq_error rfl).mpr
    (.inr ⟨Instant.ofJson?_text_early early, rfl, instant.isBlank_text, rfl⟩)

theorem DatesWithin.imp {within' : Instant → Prop} (dates : value.DatesWithin within)
    (weaker : ∀ instant, within instant → within' instant) : value.DatesWithin within' := by
  induction dates with
  | blank blank => exact .blank blank
  | date read inside => exact .date read (weaker _ inside)
  | array each ih => exact .array ih

/-- Dates are normalized, whether they are saved or loaded. -/
theorem DatesWithin.normalizes (dates : value.DatesWithin within) (mode : DateMode)
    (field : String) : ∃ kept, value.normalizeDates mode field = .ok kept := by
  induction dates with
  | @blank value blank => exact ⟨value, normalizeDates_of_isBlank blank⟩
  | @date value instant read inside => exact ⟨.string instant.text, normalizeDates_of_date read⟩
  | @array items each ih =>
    obtain ⟨others, made⟩ := exists_mapM_eq_ok_iff.mpr ih
    exact ⟨.array others, normalizeDates_array_eq_ok.mpr ⟨others, made, rfl⟩⟩

/-- A value can be loaded exactly if it is blanks and dates. -/
theorem normalizes_strict_iff : (∃ kept, value.normalizeDates .strict field = .ok kept) ↔
    value.DatesWithin fun _ => True := by
  refine ⟨?_, fun dates => dates.normalizes .strict field⟩
  rintro ⟨kept, loaded⟩
  induction value using array_induction generalizing kept with
  | single value single =>
    rcases (normalizeDates_single_eq_ok single).mp loaded with ⟨_, read, _⟩ | ⟨_, blank, _⟩
    · exact .date read trivial
    · exact .blank (blank rfl)
  | array items ih =>
    obtain ⟨others, made, _⟩ := normalizeDates_array_eq_ok.mp loaded
    refine .array fun item member => ?_
    obtain ⟨other, _, loaded⟩ := mem_mapM_of_mem made member
    exact ih item member other loaded

/-- What becomes of dates from year 0 on is settled. -/
theorem DatesWithin.settles (dates : value.DatesWithin Instant.FromYearZero)
    (normal : value.normalizeDates mode field = .ok kept) : kept.Settled := by
  induction dates generalizing kept with
  | @blank value blank =>
    rw [normalizeDates_of_isBlank blank] at normal
    cases normal
    exact fun _ _ => normalizeDates_of_isBlank blank
  | @date value instant read begun =>
    rw [normalizeDates_of_date read] at normal
    cases normal
    exact settled_text begun (Instant.ofJson?_before read)
  | @array items each ih =>
    obtain ⟨others, made, rfl⟩ := normalizeDates_array_eq_ok.mp normal
    refine fun mode field => normalizeDates_array_eq_ok.mpr ⟨others, mapM_eq_self ?_, rfl⟩
    intro other member
    obtain ⟨item, inside, source⟩ := exists_of_mem_mapM made member
    exact ih item inside source mode field

/-- If what becomes of dates can be loaded, the dates were from year 0 on. -/
theorem DatesWithin.fromYearZero (dates : value.DatesWithin within)
    (normal : value.normalizeDates mode field = .ok kept)
    (loaded : kept.normalizeDates .strict field = .ok again) :
    value.DatesWithin Instant.FromYearZero := by
  induction dates generalizing kept again with
  | blank blank => exact .blank blank
  | @date value instant read inside =>
    refine .date read (Classical.byContradiction fun early => ?_)
    rw [normalizeDates_of_date read] at normal
    cases normal
    rw [normalizeDates_text_early early] at loaded
    cases loaded
  | @array items each ih =>
    obtain ⟨others, made, rfl⟩ := normalizeDates_array_eq_ok.mp normal
    obtain ⟨_, remade, _⟩ := normalizeDates_array_eq_ok.mp loaded
    refine .array fun item member => ?_
    obtain ⟨other, inside, normal⟩ := mem_mapM_of_mem made member
    obtain ⟨_, _, loaded⟩ := mem_mapM_of_mem remade inside
    exact ih item member normal loaded

/-- Normalizing keeps the members of all objects in order. -/
theorem normalizeDates_canonical (canonical : value.Canonical)
    (normal : value.normalizeDates mode field = .ok kept) : kept.Canonical := by
  induction value using array_induction generalizing kept with
  | single value single =>
    rcases (normalizeDates_single_eq_ok single).mp normal with ⟨_, _, rfl⟩ | ⟨_, _, rfl⟩
    · trivial
    · exact canonical
  | array items ih =>
    obtain ⟨others, made, rfl⟩ := normalizeDates_array_eq_ok.mp normal
    refine canonicalItems_iff.mpr fun other member => ?_
    obtain ⟨item, inside, source⟩ := exists_of_mem_mapM made member
    exact ih item inside (canonicalItems_iff.mp canonical item inside) source

/-- Dates and blanks are no objects, so there are no members to be put in order. -/
theorem DatesWithin.canonical (dates : value.DatesWithin within) : value.Canonical := by
  induction dates with
  | @blank value blank =>
    cases value with
    | array items =>
      obtain rfl : items = [] := List.isEmpty_iff.mp blank
      trivial
    | object members => cases blank
    | _ => trivial
  | @date value instant read inside =>
    cases value with
    | array items => cases read
    | object members => cases read
    | _ => trivial
  | array each ih => exact canonicalItems_iff.mpr ih

/-- Only blanks and dates are written as what can be loaded. -/
theorem datesWithin_of_reloaded (normal : value.normalizeDates mode field = .ok kept)
    (loaded : kept.canonical.normalizeDates .strict field = .ok again) :
    value.DatesWithin fun _ => True := by
  induction value using array_induction generalizing kept again with
  | single value single =>
    rcases (normalizeDates_single_eq_ok single).mp normal with ⟨_, read, rfl⟩ | ⟨unread, _, rfl⟩
    · exact .date read trivial
    · cases value with
      | array items => cases single
      | object members => cases loaded
      | _ =>
        rcases (normalizeDates_single_eq_ok rfl).mp loaded with ⟨_, read, _⟩ | ⟨_, blank, _⟩
        · exact .date read trivial
        · exact .blank (blank rfl)
  | array items ih =>
    obtain ⟨others, made, rfl⟩ := normalizeDates_array_eq_ok.mp normal
    rw [Json.canonical, canonicalItems_eq_map] at loaded
    obtain ⟨agains, remade, _⟩ := normalizeDates_array_eq_ok.mp loaded
    refine .array fun item member => ?_
    obtain ⟨other, inside, normal⟩ := mem_mapM_of_mem made member
    obtain ⟨_, _, loaded⟩ := mem_mapM_of_mem remade (List.mem_map_of_mem inside)
    exact ih item member normal loaded

/-- What becomes of dates is written as it is. -/
theorem DatesWithin.written_eq (dates : value.DatesWithin within)
    (normal : value.normalizeDates mode field = .ok kept) : kept.canonical = kept :=
  Canonical.canonical_eq (normalizeDates_canonical dates.canonical normal)

/-- What a value is saved as can be loaded exactly if it is dates from year 0 on. -/
theorem reloads_iff (mode : DateMode) (field : String) :
    (∃ kept, value.normalizeDates mode field = .ok kept ∧
      ∃ again, kept.canonical.normalizeDates .strict field = .ok again) ↔
    value.DatesWithin Instant.FromYearZero := by
  constructor
  · rintro ⟨kept, normal, again, loaded⟩
    have dates := datesWithin_of_reloaded normal loaded
    rw [dates.written_eq normal] at loaded
    exact dates.fromYearZero normal loaded
  · intro dates
    obtain ⟨kept, normal⟩ := dates.normalizes mode field
    refine ⟨kept, normal, kept, ?_⟩
    rw [dates.written_eq normal]
    exact dates.settles normal .strict field

end Json

end GridQuery
