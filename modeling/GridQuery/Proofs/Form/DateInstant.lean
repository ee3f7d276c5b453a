import GridQuery.Proofs.Calendar.TextOrder
import GridQuery.Proofs.Calendar.Years
import GridQuery.Proofs.Decimal.Rounding
import GridQuery.Proofs.Form.Dates

/-!
The instants that JSON values stand for. A value is read as a date exactly if it stands for an
instant that the calendar covers, and its canonical text stands for that instant cut to
milliseconds.
-/

namespace GridQuery

open Calendar (Instant DateTimeAt DateAt DayNumber)

/-- A date-time, a date that begins at the instant in UTC, or a number of milliseconds since the
start of 1970, which is rounded if it is no integer. -/
inductive Json.IsDateAt : Json → Instant → Prop
  | dateTime {text : String} {instant : Instant} (written : DateTimeAt text.toList instant) :
      IsDateAt (.string text) instant
  | date {text : String} {instant : Instant} (written : DateAt text.toList instant) :
      IsDateAt (.string text) instant
  | millis (n : Int) : IsDateAt (.int n) (.ofMillis n)
  | rounded {number : Binary64} {n : Int} (rounds : RoundsTo number.value n) :
      IsDateAt (.number (.double number)) (.ofMillis n)

namespace Json

variable {value : Json} {instant later : Instant}

theorem isDateAt_string_iff {text : String} : (string text).IsDateAt instant ↔
    DateTimeAt text.toList instant ∨ DateAt text.toList instant := by
  constructor
  · intro stands
    cases stands with
    | dateTime written => exact .inl written
    | date written => exact .inr written
  · intro written
    exact written.elim .dateTime .date

/-- A value stands for one instant. -/
theorem IsDateAt.unique (stands : value.IsDateAt instant) (stands' : value.IsDateAt later) :
    instant = later := by
  cases stands with
  | dateTime written =>
    have read := Calendar.dateTime?_eq_some_iff.mpr written
    rcases isDateAt_string_iff.mp stands' with other | other
    · exact Option.some.inj (read.symm.trans (Calendar.dateTime?_eq_some_iff.mpr other))
    · cases read.symm.trans (Calendar.dateTime?_of_dateAt other)
  | date written =>
    have read := Calendar.plainDate?_eq_some_iff.mpr written
    rcases isDateAt_string_iff.mp stands' with other | other
    · cases (Calendar.dateTime?_of_dateAt written).symm.trans
        (Calendar.dateTime?_eq_some_iff.mpr other)
    · exact Option.some.inj (read.symm.trans (Calendar.plainDate?_eq_some_iff.mpr other))
  | millis n =>
    cases stands'
    rfl
  | rounded rounds =>
    cases stands' with
    | rounded rounds' => rw [rounds.unique rounds']

end Json

namespace Calendar.Instant

variable {value : Json} {instant : Instant} {error : ViewError}

theorem ofEpochMillis?_eq_some_iff {millis : Int} : ofEpochMillis? millis = some instant ↔
    instant = .ofMillis millis ∧ instant.InYears (-9999) 9999 := by
  rw [inCalendar_iff]
  simp only [ofEpochMillis?, Option.ite_none_left_eq_some, Option.some.injEq]
  constructor
  · rintro ⟨within, same⟩
    rw [← same]
    exact ⟨rfl, within⟩
  · rintro ⟨same, within⟩
    rw [same] at within ⊢
    exact ⟨within, rfl⟩

/-- No text is both a date-time and a date, so that a date-time after the calendar is no date. -/
theorem ofText?_eq_some_iff {text : String} : ofText? text = .ok (some instant) ↔
    (Json.string text).IsDateAt instant ∧ instant.InYears (-9999) 9999 := by
  unfold ofText?
  constructor
  · intro read
    split at read
    next found known =>
      split at read
      next => cases read
      next within =>
        cases read
        have written := dateTime?_eq_some_iff.mp known
        refine ⟨.dateTime written, inYears_iff.mpr ⟨written.le_year, ?_⟩⟩
        rwa [afterCalendar_iff, afterYear_iff, Int.not_lt] at within
    next =>
      have written := plainDate?_eq_some_iff.mp (Except.ok.inj read)
      exact ⟨.date written, written.inCalendar⟩
  · rintro ⟨stands, years⟩
    have within := Bool.eq_false_iff.mp (afterCalendar_of_inYears years)
    rcases Json.isDateAt_string_iff.mp stands with written | written
    · rw [dateTime?_eq_some_iff.mpr written]
      exact if_neg within
    · rw [dateTime?_of_dateAt written]
      exact congrArg Except.ok (plainDate?_eq_some_iff.mpr written)

theorem ofText?_eq_error_iff {text : String} : ofText? text = .error error ↔
    error = .beyondCalendar ∧ ∃ instant, DateTimeAt text.toList instant ∧
      instant.AfterYear 9999 := by
  unfold ofText?
  constructor
  · intro failed
    split at failed
    next found known =>
      split at failed
      next after =>
        cases failed
        exact ⟨rfl, found, dateTime?_eq_some_iff.mp known, afterCalendar_iff.mp after⟩
      next => cases failed
    next => cases failed
  · rintro ⟨same, instant, written, after⟩
    rw [same, dateTime?_eq_some_iff.mpr written]
    exact if_pos (afterCalendar_iff.mpr after)

/-- A value is read exactly if it stands for an instant that the calendar covers. -/
theorem ofJson?_eq_some_iff : ofJson? value = .ok (some instant) ↔
    value.IsDateAt instant ∧ instant.InYears (-9999) 9999 := by
  have other (unread : ofJson? value = .ok none) (dateless : ∀ instant, ¬ value.IsDateAt instant) :
      ofJson? value = .ok (some instant) ↔
        value.IsDateAt instant ∧ instant.InYears (-9999) 9999 := by
    rw [unread]
    refine iff_of_false (fun read => by cases read) ?_
    rintro ⟨stands, _⟩
    exact dateless instant stands
  cases value with
  | string text => exact ofText?_eq_some_iff
  | number number =>
    cases number with
    | integer millis =>
      rw [ofJson?, Except.ok.injEq, ofEpochMillis?_eq_some_iff]
      refine and_congr_left fun _ => ⟨?_, ?_⟩
      · intro same
        rw [same]
        exact .millis millis
      · intro stands
        cases stands
        rfl
    | double millis =>
      rw [ofJson?, Except.ok.injEq, ofEpochMillis?_eq_some_iff]
      refine and_congr_left fun _ => ⟨?_, ?_⟩
      · intro same
        rw [same]
        exact .rounded (millis.roundsTo_iff.mpr rfl)
      · intro stands
        cases stands with
        | rounded rounds => rw [millis.roundsTo_iff.mp rounds]
  | null | bool | array | object => exact other rfl fun _ stands => by cases stands

/-- Only a date-time after the calendar is an error. -/
theorem ofJson?_eq_error_iff : ofJson? value = .error error ↔ error = .beyondCalendar ∧
    ∃ text instant, value = .string text ∧ DateTimeAt text.toList instant ∧
      instant.AfterYear 9999 := by
  cases value with
  | string text =>
    simp only [ofJson?, ofText?_eq_error_iff, Json.string.injEq]
    constructor
    · rintro ⟨same, instant, written, after⟩
      exact ⟨same, text, instant, rfl, written, after⟩
    · rintro ⟨same, other, instant, read, written, after⟩
      rw [← read] at written
      exact ⟨same, instant, written, after⟩
  | number number =>
    cases number with
    | integer _ | double _ =>
      refine iff_of_false (fun failed => by cases failed) ?_
      rintro ⟨_, _, _, isText, _⟩
      cases isText
  | null | bool | array | object =>
    refine iff_of_false (fun failed => by cases failed) ?_
    rintro ⟨_, _, _, isText, _⟩
    cases isText

end Calendar.Instant

/-- A value that is read becomes the text of its instant. -/
theorem canonicalDate?_eq_some_iff {value canonical : Json} :
    canonicalDate? value = .ok (some canonical) ↔ ∃ instant, value.IsDateAt instant ∧
      instant.InYears (-9999) 9999 ∧ canonical = .string instant.text := by
  simp only [← and_assoc, ← Calendar.Instant.ofJson?_eq_some_iff, canonicalDate?]
  cases Instant.ofJson? value with
  | error error =>
    refine iff_of_false (fun made => by cases made) ?_
    rintro ⟨_, read, _⟩
    cases read
  | ok date =>
    cases date with
    | none =>
      refine iff_of_false (fun made => by cases made) ?_
      rintro ⟨_, read, _⟩
      cases read
    | some instant =>
      constructor
      · intro made
        exact ⟨instant, rfl, (Option.some.inj (Except.ok.inj made)).symm⟩
      · rintro ⟨other, same, made⟩
        rw [made, ← Option.some.inj (Except.ok.inj same)]
        rfl

theorem canonicalDate?_eq_error_iff {value : Json} {error : ViewError} :
    canonicalDate? value = .error error ↔ error = .beyondCalendar ∧
      ∃ text instant, value = .string text ∧ DateTimeAt text.toList instant ∧
        instant.AfterYear 9999 := by
  rw [← Calendar.Instant.ofJson?_eq_error_iff, canonicalDate?, bind_eq_error]
  constructor
  · intro failed
    rcases failed with failed | ⟨_, _, failed⟩
    · exact failed
    · cases failed
  · exact .inl

namespace Json

variable {value other : Json} {instant later : Instant} {text otherText : String}

/-- The value stands for an instant of the years that have four digits, and becomes the text. -/
structure BecomesDate (value : Json) (instant : Instant) (text : String) : Prop where
  stands : value.IsDateAt instant
  years : instant.InYears 0 9999
  read : canonicalDate? value = .ok (some (.string text))

theorem IsDateAt.canonicalDate?_eq (stands : value.IsDateAt instant)
    (years : instant.InYears 0 9999) :
    canonicalDate? value = .ok (some (.string instant.text)) := by
  obtain ⟨date, numbered, first, last⟩ := years
  exact canonicalDate?_eq_some_iff.mpr ⟨instant, stands, ⟨date, numbered, by omega, last⟩, rfl⟩

theorem BecomesDate.text_eq (becomes : value.BecomesDate instant text) : text = instant.text := by
  have read := becomes.stands.canonicalDate?_eq becomes.years
  exact Json.string.inj (Option.some.inj (Except.ok.inj (becomes.read.symm.trans read)))

theorem BecomesDate.again (becomes : value.BecomesDate instant text) :
    (string text).IsDateAt instant.cut ∧
      canonicalDate? (.string text) = .ok (some (.string text)) := by
  have read := Instant.ofJson?_text (Instant.fromYearZero_of_inYears becomes.years)
    (Instant.afterCalendar_of_inYears becomes.years)
  obtain ⟨stands, years⟩ := Instant.ofJson?_eq_some_iff.mp read
  rw [becomes.text_eq]
  exact ⟨stands, canonicalDate?_eq_some_iff.mpr
    ⟨instant.cut, stands, years, congrArg string instant.text_cut.symm⟩⟩

/-- What is read as a date stands for one instant. If this falls into the years from 0 to 9999, the
value becomes a text that stands for the instant cut to milliseconds and becomes itself, and such
texts are in the order of these instants. -/
theorem canonicalDate?_keepsInstant :
    (∀ value canonical, canonicalDate? value = .ok (some canonical) →
      ∃ instant, value.IsDateAt instant ∧ ∀ other, value.IsDateAt other → other = instant) ∧
    (∀ (value : Json) (instant : Instant), value.IsDateAt instant → instant.InYears 0 9999 →
      ∃ text, value.BecomesDate instant text) ∧
    (∀ (value : Json) (instant : Instant) (text : String), value.BecomesDate instant text →
      (string text).IsDateAt instant.cut ∧
        canonicalDate? (.string text) = .ok (some (.string text))) ∧
    ∀ (value other : Json) (instant later : Instant) (text otherText : String),
      value.BecomesDate instant text → other.BecomesDate later otherText →
        (Text.bytes text < Text.bytes otherText ↔
          instant.cut.nanoseconds < later.cut.nanoseconds) := by
  refine ⟨?_, ?_, ?_, ?_⟩
  · intro value canonical read
    obtain ⟨instant, stands, _⟩ := canonicalDate?_eq_some_iff.mp read
    exact ⟨instant, stands, fun other stands' => stands'.unique stands⟩
  · intro value instant stands years
    exact ⟨instant.text, stands, years, stands.canonicalDate?_eq years⟩
  · exact fun value instant text becomes => becomes.again
  · intro value other instant later text otherText becomes becomes'
    rw [becomes.text_eq, becomes'.text_eq]
    exact Instant.bytes_text_lt_iff (Instant.fromYearZero_of_inYears becomes.years)
      (Instant.fromYearZero_of_inYears becomes'.years)
      (Instant.afterCalendar_of_inYears becomes.years)
      (Instant.afterCalendar_of_inYears becomes'.years)

/-- The last second of February 2024, a leap second, half an hour behind UTC. -/
def leapText : String :=
  "2024-02-29T23:29:60.5-00:30"

/-- Half a millisecond after it, as a number. -/
def marchMillis : Binary64 :=
  ⟨false, 4789823897182668800, by decide⟩

/-- The leap second becomes the millisecond before it, the number is rounded to the one after it. -/
theorem leapText_keepsInstant :
    (string leapText).BecomesDate ⟨1709251199999999999⟩ "2024-02-29T23:59:59.999Z" ∧
      (number (.double marchMillis)).BecomesDate ⟨1709251200001000000⟩
        "2024-03-01T00:00:00.001Z" ∧
      (∃ instant, (string leapText).IsDateAt instant ∧
        ∀ other, (string leapText).IsDateAt other → other = instant) ∧
      (string "2024-02-29T23:59:59.999Z").IsDateAt (.ofMillis 1709251199999) ∧
      Text.bytes "2024-02-29T23:59:59.999Z" < Text.bytes "2024-03-01T00:00:00.001Z" := by
  obtain ⟨reads, _, again, ordered⟩ := canonicalDate?_keepsInstant
  have leap : (string leapText).BecomesDate ⟨1709251199999999999⟩ "2024-02-29T23:59:59.999Z" :=
    ⟨(Instant.ofJson?_eq_some_iff.mp rfl).1, Instant.inYears_iff.mpr (by decide), rfl⟩
  have march : (number (.double marchMillis)).BecomesDate ⟨1709251200001000000⟩
      "2024-03-01T00:00:00.001Z" :=
    ⟨(Instant.ofJson?_eq_some_iff.mp rfl).1, Instant.inYears_iff.mpr (by decide), rfl⟩
  exact ⟨leap, march, reads _ _ leap.read, (again _ _ _ leap).1,
    (ordered _ _ _ _ _ _ leap march).mpr (by decide)⟩

end Json

end GridQuery
