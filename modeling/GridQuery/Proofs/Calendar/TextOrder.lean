import GridQuery.Proofs.Calendar.Instant
import GridQuery.Proofs.Calendar.Succession
import Mathlib.Algebra.Ring.Nat
import Mathlib.Data.List.Forall2

/-!
The order of canonical texts. Numbers of one width are written in their order, so the texts of the
instants of the years 0 to 9999 compare byte by byte as the instants do, to the millisecond.
-/

namespace GridQuery

/-- The bytes of a text in UTF-8. -/
def Text.bytes (text : String) : List UInt8 :=
  text.toByteArray.data.toList

namespace Calendar

section

variable {chars others : List Char}

theorem encode_narrow {c : Char} (narrow : c.toNat < 0x80) :
    String.utf8EncodeChar c = [c.toUInt8] := by
  apply String.utf8EncodeChar_eq_singleton
  rw [Char.utf8Size_eq_one_iff, UInt32.le_iff_toNat_le]
  exact Nat.le_of_lt_succ narrow

theorem bytes_ofList (narrow : ∀ c ∈ chars, c.toNat < 0x80) :
    Text.bytes (String.ofList chars) = chars.map Char.toUInt8 := by
  have encoded : Text.bytes (String.ofList chars) = chars.flatMap String.utf8EncodeChar := by
    simp [Text.bytes, List.utf8Encode]
  rw [encoded, List.map_eq_flatMap]
  exact List.flatMap_congr fun c member => encode_narrow (narrow c member)

theorem toUInt8_lt {c d : Char} (narrow : d.toNat < 0x80) (order : c < d) :
    c.toUInt8 < d.toUInt8 := by
  have codes : c.toNat < d.toNat := order
  rw [UInt8.lt_iff_toNat_lt]
  change c.toNat % 256 < d.toNat % 256
  omega

/-- Characters of one byte are ordered as their bytes. -/
theorem map_toUInt8_lt (narrow : ∀ c ∈ others, c.toNat < 0x80) (order : chars < others) :
    chars.map Char.toUInt8 < others.map Char.toUInt8 := by
  induction order with
  | nil => exact .nil
  | rel smaller => exact .rel (toUInt8_lt (narrow _ List.mem_cons_self) smaller)
  | cons later ih => exact .cons (ih fun c member => narrow c (List.mem_cons_of_mem _ member))

theorem append_lt_append {left right tail tail' : List Char} (same : left.length = right.length)
    (order : left < right) : left ++ tail < right ++ tail' := by
  induction order with
  | nil => cases same
  | rel smaller => exact .rel smaller
  | cons later ih => exact .cons (ih (Nat.succ.inj same))

end

section

variable {width n m : Nat}

theorem length_padded (short : n < 10 ^ (width + 1)) :
    (padded (width + 1) n).length = width + 1 := by
  have digits := (Nat.length_toDigits_le_iff (by decide) (Nat.succ_pos width)).mpr short
  simp only [padded, List.length_append, List.length_replicate]
  omega

theorem digitChar_lt (order : n < m) (small : m < 10) : n.digitChar < m.digitChar := by
  change n.digitChar.toNat < m.digitChar.toNat
  rw [Nat.toNat_digitChar_of_lt_ten (Nat.lt_trans order small),
    Nat.toNat_digitChar_of_lt_ten small]
  omega

/-- Numbers of one width are written in their order. -/
theorem padded_lt (order : n < m) (short : m < 10 ^ (width + 1)) :
    padded (width + 1) n < padded (width + 1) m := by
  induction width generalizing n m with
  | zero =>
    rw [padded_one (Nat.lt_trans order short), padded_one short]
    exact .rel (digitChar_lt order short)
  | succ width ih =>
    have tens : m / 10 < 10 ^ (width + 1) := by
      rw [Nat.div_lt_iff_lt_mul (by decide), ← Nat.pow_succ]
      exact short
    rw [padded_succ, padded_succ]
    rcases Nat.lt_or_ge (n / 10) (m / 10) with smaller | notSmaller
    · apply append_lt_append _ (ih smaller tens)
      rw [length_padded (Nat.lt_trans smaller tens), length_padded tens]
    · rw [show n / 10 = m / 10 by omega]
      exact List.append_left_lt (.rel (digitChar_lt (by omega) (Nat.mod_lt m (by decide))))

/-- Numbers of fixed widths, each with a mark after it. -/
def numerals : List (Nat × Char) → List Nat → List Char
  | (width, mark) :: layout, value :: values => padded width value ++ mark :: numerals layout values
  | _, _ => []

/-- The place is wide enough for the number. -/
inductive Fits : Nat × Char → Nat → Prop
  | short {width value : Nat} {mark : Char} (short : value < 10 ^ (width + 1)) :
      Fits (width + 1, mark) value

theorem numerals_lt {layout : List (Nat × Char)} {values others : List Nat}
    (fits : List.Forall₂ Fits layout values) (fits' : List.Forall₂ Fits layout others)
    (order : values < others) : numerals layout values < numerals layout others := by
  induction order generalizing layout with
  | nil =>
    cases fits
    cases fits'
  | rel smaller =>
    cases fits with
    | cons here later =>
      cases fits' with
      | cons here' later' =>
        obtain ⟨short⟩ := here
        obtain ⟨short'⟩ := here'
        exact append_lt_append ((length_padded short).trans (length_padded short').symm)
          (padded_lt smaller short')
  | cons later ih =>
    cases fits with
    | cons here later =>
      cases fits' with
      | cons here' later' => exact List.append_left_lt (.cons (ih later later'))

theorem numerals_narrow {layout : List (Nat × Char)} {values : List Nat}
    (marks : ∀ part ∈ layout, part.2.toNat < 0x80) :
    ∀ c ∈ numerals layout values, c.toNat < 0x80 := by
  induction layout generalizing values with
  | nil => nofun
  | cons part layout ih =>
    obtain ⟨width, mark⟩ := part
    obtain ⟨here, later⟩ := List.forall_mem_cons.mp marks
    cases values with
    | nil => nofun
    | cons value values =>
      refine List.forall_mem_append.mpr ⟨?_, List.forall_mem_cons.mpr ⟨here, ih later⟩⟩
      intro c member
      have last : c.toNat ≤ 0x39 := (Char.isDigit_iff_toNat.mp (isDigit_of_mem_padded member)).2
      omega

end

namespace Instant

variable {instant later : Instant}

/-- The numbers in the canonical text of an instant from year 0 on. -/
def fields (instant : Instant) : List Nat :=
  [instant.date.year.natAbs, instant.date.month, instant.date.day, instant.clock.hour,
    instant.clock.minute, instant.clock.second, instant.millisOfDay % 1000]

def layout : List (Nat × Char) :=
  [(4, '-'), (2, '-'), (2, 'T'), (2, ':'), (2, ':'), (2, '.'), (3, 'Z')]

theorem chars_eq_numerals (begun : instant.FromYearZero) :
    instant.chars = numerals layout instant.fields := by
  have year := year_nonneg_iff.mpr begun
  rw [chars_eq, yearChars, if_neg (Int.not_lt.mpr year)]
  simp only [List.nil_append, List.append_assoc, List.cons_append, numerals, layout, fields]

theorem fields_fit (begun : instant.FromYearZero) (before : instant.afterCalendar = false) :
    List.Forall₂ Fits layout instant.fields := by
  have real : instant.date.Exists := (ofDays_spec _).2.1
  have months := real.month_le
  have days := real.day_le
  have year := year_nonneg_iff.mpr begun
  have year' := year_lt before
  obtain ⟨hours, minutes, seconds⟩ := instant.clock_exists
  refine .cons (.short ?_) (.cons (.short ?_) (.cons (.short ?_) (.cons (.short ?_)
    (.cons (.short ?_) (.cons (.short ?_) (.cons (.short ?_) .nil))))))
  all_goals
    simp only [Nat.reduceAdd, Nat.reducePow]
    omega

/-- Instants of different milliseconds differ first in the number that makes the later one later. -/
theorem fields_lt (begun : instant.FromYearZero)
    (order : instant.cut.nanoseconds < later.cut.nanoseconds) : instant.fields < later.fields := by
  simp only [fields, List.cons_lt_cons_iff, List.not_lt_nil, and_false, or_false]
  simp only [cut, ofMillis, nanosPerMilli] at order
  rcases Int.lt_or_le (instant.nanoseconds / nanosPerDay) (later.nanoseconds / nanosPerDay) with
    days | notDays
  · have year := year_nonneg_iff.mpr begun
    have before : instant.date.Before later.date := by
      apply Date.before_of_toDays_lt (ofDays_spec _).2.1 (ofDays_spec _).2.1
      rwa [(ofDays_spec _).2.2, (ofDays_spec _).2.2]
    unfold Date.Before at before
    omega
  · have sameDay : instant.nanoseconds / nanosPerDay = later.nanoseconds / nanosPerDay := by
      simp only [nanosPerDay, secondsPerDay, nanosPerSecond] at *
      omega
    have sameDate : instant.date = later.date := congrArg Date.ofDays sameDay
    have time : instant.millisOfDay < later.millisOfDay := by
      simp only [millisOfDay, nanosPerDay, secondsPerDay, nanosPerSecond, nanosPerMilli] at *
      omega
    simp only [sameDate, Nat.lt_irrefl, false_or, true_and, clock]
    omega

theorem bytes_text_lt (begun : instant.FromYearZero) (begun' : later.FromYearZero)
    (before : instant.afterCalendar = false) (before' : later.afterCalendar = false)
    (order : instant.cut.nanoseconds < later.cut.nanoseconds) :
    Text.bytes instant.text < Text.bytes later.text := by
  have narrow {values : List Nat} : ∀ c ∈ numerals layout values, c.toNat < 0x80 :=
    numerals_narrow (by decide)
  rw [text, text, chars_eq_numerals begun, chars_eq_numerals begun', bytes_ofList narrow,
    bytes_ofList narrow]
  exact map_toUInt8_lt narrow
    (numerals_lt (fields_fit begun before) (fields_fit begun' before') (fields_lt begun order))

/-- The texts of instants of the years 0 to 9999 are in the order of their milliseconds. -/
theorem bytes_text_lt_iff (begun : instant.FromYearZero) (begun' : later.FromYearZero)
    (before : instant.afterCalendar = false) (before' : later.afterCalendar = false) :
    Text.bytes instant.text < Text.bytes later.text ↔
      instant.cut.nanoseconds < later.cut.nanoseconds := by
  refine ⟨fun order => ?_, bytes_text_lt begun begun' before before'⟩
  rcases Int.lt_trichotomy instant.cut.nanoseconds later.cut.nanoseconds with
    earlier | same | after
  · exact earlier
  · have sameCut : instant.cut = later.cut := congrArg Instant.mk same
    have sameText : instant.text = later.text := by
      rw [text, text, ← instant.cut_chars, ← later.cut_chars, sameCut]
    rw [sameText] at order
    exact absurd order (List.lt_irrefl _)
  · exact absurd order (List.lt_asymm (bytes_text_lt begun' begun before' before after))

end Instant

end Calendar

end GridQuery
