import GridQuery.Proofs.Calendar.Instant
import GridQuery.Proofs.Json.NumberText

/-!
The parts of a date-time, told by their grammar: numerals of two and four digits, the fraction of a
second and the offset from UTC. The readers take these texts and no others.
-/

namespace GridQuery.Calendar

section Digits

variable {n : Nat} {c a b d : Char}

theorem digit?_eq_some_iff : digit? c = some n ↔ n < 10 ∧ n.digitChar = c := by
  constructor
  · intro read
    have small := digit?_lt read
    refine ⟨small, Char.toNat_inj.mp ?_⟩
    rw [digit?] at read
    split at read
    next digit =>
      have first : 0x30 ≤ c.toNat := (Char.isDigit_iff_toNat.mp digit).1
      have value : c.toNat - 0x30 = n := Option.some.inj read
      rw [Nat.toNat_digitChar_of_lt_ten small]
      omega
    next => cases read
  · rintro ⟨small, same⟩
    rw [← same, digit?_digitChar small]

theorem padded_two_eq (short : n < 100) :
    padded 2 n = [(n / 10).digitChar, (n % 10).digitChar] := by
  rw [padded_succ 0, padded_one (by omega)]
  rfl

theorem twoDigits?_eq_some_iff : twoDigits? a b = some n ↔ n < 100 ∧ padded 2 n = [a, b] := by
  constructor
  · intro read
    have short := twoDigits?_lt read
    refine ⟨short, ?_⟩
    simp only [twoDigits?, Option.bind_eq_bind, Option.bind_eq_some_iff] at read
    obtain ⟨tens, first, ones, second, value⟩ := read
    have value : tens * 10 + ones = n := Option.some.inj value
    obtain ⟨_, tensChar⟩ := digit?_eq_some_iff.mp first
    obtain ⟨_, onesChar⟩ := digit?_eq_some_iff.mp second
    rw [padded_two_eq short, ← tensChar, ← onesChar, show n / 10 = tens by omega,
      show n % 10 = ones by omega]
  · rintro ⟨short, text⟩
    obtain ⟨a', b', text', read⟩ := padded_two short
    cases text.symm.trans text'
    exact read

theorem padded_four_eq (n : Nat) : padded 4 n = padded 2 (n / 100) ++ padded 2 (n % 100) := by
  rw [padded_two_eq (show n % 100 < 100 by omega), padded_succ 2, padded_succ 1,
    Nat.div_div_eq_div_mul, List.append_assoc, show n % 100 / 10 = n / 10 % 10 by omega,
    show n % 100 % 10 = n % 10 by omega]
  rfl

theorem fourDigits?_eq_some_iff :
    fourDigits? a b c d = some n ↔ n < 10000 ∧ padded 4 n = [a, b, c, d] := by
  constructor
  · intro read
    have short := fourDigits?_lt read
    refine ⟨short, ?_⟩
    simp only [fourDigits?, Option.bind_eq_bind, Option.bind_eq_some_iff] at read
    obtain ⟨hundreds, first, rest, second, value⟩ := read
    have value : hundreds * 100 + rest = n := Option.some.inj value
    obtain ⟨_, hundredsText⟩ := twoDigits?_eq_some_iff.mp first
    obtain ⟨_, restText⟩ := twoDigits?_eq_some_iff.mp second
    rw [padded_four_eq n, show n / 100 = hundreds by omega, show n % 100 = rest by omega,
      hundredsText, restText]
    rfl
  · rintro ⟨short, text⟩
    obtain ⟨a', b', c', d', text', read⟩ := padded_four short
    cases text.symm.trans text'
    exact read

end Digits

/-- What may follow the seconds: a point and digits. Of the fraction whole nanoseconds count. -/
inductive FractionText : List Char → Nat → Prop
  | absent : FractionText [] 0
  | digits {digits : List Char} (given : digits ≠ []) (numeric : Json.Digits digits) :
      FractionText ('.' :: digits) (Json.digitsValue digits * 10 ^ 9 / 10 ^ digits.length)

/-- The offset from UTC, in seconds. -/
inductive OffsetText : List Char → Int → Prop
  | utc : OffsetText ['Z'] 0
  | utc' : OffsetText ['z'] 0
  | ahead {hours minutes : Nat} (hoursShort : hours ≤ 23) (minutesShort : minutes ≤ 59) :
      OffsetText ('+' :: padded 2 hours ++ ':' :: padded 2 minutes) (hours * 3600 + minutes * 60)
  | behind {hours minutes : Nat} (hoursShort : hours ≤ 23) (minutesShort : minutes ≤ 59) :
      OffsetText ('-' :: padded 2 hours ++ ':' :: padded 2 minutes)
        (-(hours * 3600 + minutes * 60))

section

variable {digits fraction rest zone : List Char} {nanos : Nat} {offset : Int}

theorem digitsValue_lt (numeric : Json.Digits digits) :
    Json.digitsValue digits < 10 ^ digits.length := by
  induction digits with
  | nil => exact Nat.one_pos
  | cons c digits ih =>
    obtain ⟨isDigit, others⟩ := List.forall_mem_cons.mp numeric
    have last : c.toNat ≤ 0x39 := (Char.isDigit_iff_toNat.mp isDigit).2
    have first : Json.digitsValue [c] ≤ 9 := by
      simp only [Json.digitsValue, List.foldl_cons, List.foldl_nil]
      omega
    have rest := ih others
    rw [← List.singleton_append, Json.digitsValue_append, List.length_append, Nat.pow_add]
    calc
      _ < Json.digitsValue [c] * 10 ^ digits.length + 10 ^ digits.length := by omega
      _ = (Json.digitsValue [c] + 1) * 10 ^ digits.length := (Nat.succ_mul _ _).symm
      _ ≤ 10 ^ [c].length * 10 ^ digits.length :=
        Nat.mul_le_mul_right _ (Nat.succ_le_succ first)

/-- Nine digits give the nanoseconds, and missing ones are zeros. -/
theorem fractionNanos_eq (numeric : Json.Digits digits) :
    fractionNanos digits = Json.digitsValue digits * 10 ^ 9 / 10 ^ digits.length := by
  change Json.digitsValue (digits.take 9 ++ Json.zeros (9 - digits.length)) = _
  rw [Json.digitsValue_append, Json.digitsValue_zeros, Nat.add_zero, Json.zeros,
    List.length_replicate]
  rcases Nat.le_total digits.length 9 with short | long
  · rw [List.take_of_length_le short]
    refine (Nat.div_eq_of_eq_mul_left (Nat.pow_pos (by decide)) ?_).symm
    rw [Nat.mul_assoc, ← Nat.pow_add, Nat.sub_add_cancel short]
  · have parts := Json.digitsValue_append (digits.take 9) (digits.drop 9)
    have others : Json.Digits (digits.drop 9) :=
      fun c member => numeric c (List.mem_of_mem_drop member)
    have small := digitsValue_lt others
    rw [List.take_append_drop, List.length_drop] at parts
    rw [List.length_drop] at small
    have width : 10 ^ digits.length = 10 ^ (digits.length - 9) * 10 ^ 9 := by
      rw [← Nat.pow_add, Nat.sub_add_cancel long]
    rw [width, Nat.mul_div_mul_right _ _ (Nat.pow_pos (by decide)), parts,
      Nat.sub_eq_zero_of_le long, Nat.pow_zero, Nat.mul_one, Nat.add_comm,
      Nat.add_mul_div_right _ _ (Nat.pow_pos (by decide)), Nat.div_eq_of_lt small, Nat.zero_add]

/-- No fraction goes on or begins here. -/
def AfterFraction (zone : List Char) : Prop :=
  ∃ c rest, zone = c :: rest ∧ c.isDigit = false ∧ c ≠ '.'

theorem OffsetText.afterFraction (written : OffsetText zone offset) : AfterFraction zone := by
  cases written with
  | utc | utc' | ahead | behind => exact ⟨_, _, rfl, by decide, by decide⟩

theorem exists_fractionText (read : fraction? rest = some (nanos, zone)) :
    ∃ fraction, FractionText fraction nanos ∧ rest = fraction ++ zone := by
  unfold fraction? at read
  split at read
  next rest =>
    simp only at read
    split at read
    next => cases read
    next given =>
      cases read
      have numeric : Json.Digits (rest.takeWhile Char.isDigit) :=
        fun c member => List.mem_takeWhile_imp member
      refine ⟨'.' :: rest.takeWhile Char.isDigit, ?_, ?_⟩
      · rw [fractionNanos_eq numeric]
        exact .digits (mt List.isEmpty_iff.mpr given) numeric
      · rw [List.cons_append, List.takeWhile_append_dropWhile]
  next =>
    cases read
    exact ⟨[], .absent, rfl⟩

theorem fraction?_of_fractionText (written : FractionText fraction nanos)
    (after : AfterFraction zone) : fraction? (fraction ++ zone) = some (nanos, zone) := by
  obtain ⟨c, rest, rfl, noDigit, noPoint⟩ := after
  cases written with
  | absent =>
    unfold fraction?
    split
    next same => exact absurd (List.cons.inj same).1 noPoint
    next => rfl
  | @digits digits given numeric =>
    have ended : Json.Ended (c :: rest) := by
      intro d first
      cases first
      exact noDigit
    rw [List.cons_append, fraction?]
    simp only [Json.takeWhile_digits numeric ended, Json.dropWhile_digits numeric ended]
    rw [if_neg (mt List.isEmpty_iff.mp given), fractionNanos_eq numeric]

/-- A time in hours and minutes is read, and the sign decides what becomes of it. -/
theorem offset?_signed (sign : Char) {hours minutes : Nat} (hoursShort : hours ≤ 23)
    (minutesShort : minutes ≤ 59) :
    offset? (sign :: padded 2 hours ++ ':' :: padded 2 minutes) =
      if sign = '+' then some (hours * 3600 + minutes * 60 : Int)
      else if sign = '-' then some (-(hours * 3600 + minutes * 60)) else none := by
  obtain ⟨a, b, hoursText, first⟩ := padded_two (show hours < 100 by omega)
  obtain ⟨c, d, minutesText, second⟩ := padded_two (show minutes < 100 by omega)
  have short : ¬ (hours > 23 ∨ minutes > 59) := by omega
  rw [hoursText, minutesText]
  simp only [List.cons_append, List.nil_append, offset?, first, second, Option.bind_eq_bind,
    Option.bind_some]
  rw [if_neg short]

theorem offset?_eq_some_iff : offset? zone = some offset ↔ OffsetText zone offset := by
  constructor
  · intro read
    unfold offset? at read
    split at read
    next =>
      cases read
      exact .utc
    next =>
      cases read
      exact .utc'
    next sign a b c d =>
      simp only [Option.bind_eq_bind, Option.bind_eq_some_iff] at read
      obtain ⟨hours, first, minutes, second, read⟩ := read
      obtain ⟨_, hoursText⟩ := twoDigits?_eq_some_iff.mp first
      obtain ⟨_, minutesText⟩ := twoDigits?_eq_some_iff.mp second
      have short : ¬ (hours > 23 ∨ minutes > 59) := by
        intro long
        rw [if_pos long] at read
        cases read
      rw [if_neg short] at read
      have hoursShort : hours ≤ 23 := by omega
      have minutesShort : minutes ≤ 59 := by omega
      split at read
      next plus =>
        cases read
        have written := OffsetText.ahead hoursShort minutesShort
        rwa [hoursText, minutesText, ← plus] at written
      next =>
        split at read
        next minus =>
          cases read
          have written := OffsetText.behind hoursShort minutesShort
          rwa [hoursText, minutesText, ← minus] at written
        next => cases read
    next => cases read
  · intro written
    cases written with
    | utc => rfl
    | utc' => rfl
    | ahead hoursShort minutesShort => exact offset?_signed '+' hoursShort minutesShort
    | behind hoursShort minutesShort => exact offset?_signed '-' hoursShort minutesShort

end

end GridQuery.Calendar
