import GridQuery.Proofs.Decimal.Shortest

/-!
Doubles are rounded to the nearest integer. Of two nearest ones it is the one farther from zero.
-/

namespace GridQuery

/-- The integer is nearest to the number, and farther from zero where the number lies halfway
between two integers. -/
structure RoundsTo (number : ℚ) (n : Int) : Prop where
  near : |number - n| ≤ 1 / 2
  away : |number - n| = 1 / 2 → |number| < |(n : ℚ)|

namespace RoundsTo

variable {number : ℚ} {n m : Int}

theorem neg (rounds : RoundsTo number n) : RoundsTo (-number) (-n) := by
  have distance : |(-number) - ((-n : Int) : ℚ)| = |number - n| := by
    rw [Int.cast_neg, neg_sub_neg, abs_sub_comm]
  constructor
  · rw [distance]
    exact rounds.near
  · intro half
    rw [distance] at half
    rw [Int.cast_neg, abs_neg, abs_neg]
    exact rounds.away half

/-- Halfway between two integers, one of them is nearer to zero. -/
theorem not_lt (rounds : RoundsTo number n) (rounds' : RoundsTo number m) : ¬ n < m := by
  intro order
  have step : (n : ℚ) + 1 ≤ m := by exact_mod_cast order
  have after := (abs_le.mp rounds.near).2
  have before := (abs_le.mp rounds'.near).1
  have half : number - n = 1 / 2 := by linarith
  have half' : number - m = -(1 / 2) := by linarith
  have away := rounds.away (by rw [half, abs_of_pos one_half_pos])
  have away' := rounds'.away (by rw [half', abs_neg, abs_of_pos one_half_pos])
  have adjacent : m = n + 1 := by
    have sum : (m : ℚ) = n + 1 := by linarith
    exact_mod_cast sum
  by_cases negative : n < 0
  · have upper : (m : ℚ) ≤ 0 := by
      rw [adjacent]
      exact_mod_cast negative
    have size := neg_le_abs number
    rw [abs_of_nonpos upper] at away'
    linarith
  · have lower : (0 : ℚ) ≤ n := by exact_mod_cast Int.not_lt.mp negative
    have size := le_abs_self number
    rw [abs_of_nonneg lower] at away
    linarith

/-- A number has one nearest integer. -/
theorem unique (rounds : RoundsTo number n) (rounds' : RoundsTo number m) : n = m :=
  le_antisymm (Int.not_lt.mp (rounds'.not_lt rounds)) (Int.not_lt.mp (rounds.not_lt rounds'))

theorem of_floor {n : Nat} (positive : 0 ≤ number) (above : (n : ℚ) ≤ number + 1 / 2)
    (below : number + 1 / 2 < n + 1) : RoundsTo number n := by
  constructor
  · rw [Int.cast_natCast, abs_le]
    constructor <;> linarith
  · intro half
    rw [Int.cast_natCast] at half ⊢
    rw [abs_of_nonneg positive, abs_of_nonneg n.cast_nonneg]
    rcases eq_or_eq_neg_of_abs_eq half with after | before <;> linarith

theorem natCast (n : Nat) : RoundsTo n n := by
  apply of_floor n.cast_nonneg <;> linarith

/-- A quotient is rounded by adding a half before the integer division. -/
theorem div (numerator : Nat) {denominator : Nat} (positive : 0 < denominator) :
    RoundsTo (numerator / denominator : ℚ)
      (((2 * numerator + denominator) / (2 * denominator) : Nat) : Int) := by
  have unit : (0 : ℚ) < 2 * denominator := by positivity
  have scaled : (numerator / denominator : ℚ) + 1 / 2 =
      (2 * numerator + denominator : Nat) / (2 * denominator : ℚ) := by
    push_cast
    field_simp
  apply of_floor (by positivity)
  · rw [scaled, le_div_iff₀ unit]
    exact_mod_cast Nat.div_mul_le_self (2 * numerator + denominator) (2 * denominator)
  · rw [scaled, div_lt_iff₀ unit]
    exact_mod_cast Nat.lt_mul_of_div_lt (Nat.lt_succ_self _) (Nat.mul_pos two_pos positive)

end RoundsTo

namespace Binary64

/-- The number that a double is. -/
def value (x : Binary64) : ℚ :=
  if x.negative then -size x.magnitude else size x.magnitude

/-- The integer to which a magnitude is rounded. -/
def roundedSize (magnitude : Nat) : Nat :=
  let exponent := exponentOf magnitude
  if exponent ≥ 0 then significandOf magnitude * Nat.pow 2 exponent.toNat
  else (2 * significandOf magnitude + Nat.pow 2 (-exponent).toNat) /
    Nat.pow 2 ((-exponent).toNat + 1)

theorem round_eq (x : Binary64) : x.round =
    if x.negative then -(roundedSize x.magnitude : Int) else roundedSize x.magnitude :=
  rfl

theorem roundsTo_roundedSize (magnitude : Nat) :
    RoundsTo (size magnitude) (roundedSize magnitude) := by
  rw [size, spacing]
  by_cases whole : exponentOf magnitude ≥ 0
  · obtain ⟨power, same⟩ := Int.eq_ofNat_of_zero_le whole
    have product : (significandOf magnitude * 2 ^ power : ℚ) =
        (significandOf magnitude * 2 ^ power : Nat) := by
      push_cast
      rfl
    rw [roundedSize, if_pos whole, same, zpow_natCast, product]
    exact .natCast _
  · obtain ⟨power, same⟩ :=
      Int.eq_ofNat_of_zero_le (Int.neg_nonneg_of_nonpos (Int.not_le.mp whole).le)
    have quotient : (significandOf magnitude * 2 ^ exponentOf magnitude : ℚ) =
        significandOf magnitude / (2 ^ power : Nat) := by
      rw [← Int.neg_neg (exponentOf magnitude), same, zpow_neg, zpow_natCast, div_eq_mul_inv]
      push_cast
      rfl
    rw [roundedSize, if_neg whole, same, quotient]
    have rounds := RoundsTo.div (significandOf magnitude) (Nat.two_pow_pos power)
    rwa [← Nat.pow_succ'] at rounds

theorem roundsTo_iff (x : Binary64) {n : Int} : RoundsTo x.value n ↔ n = x.round := by
  have rounds : RoundsTo x.value x.round := by
    have positive := roundsTo_roundedSize x.magnitude
    rw [value, round_eq]
    by_cases sign : x.negative
    · rw [if_pos sign, if_pos sign]
      exact positive.neg
    · rw [if_neg sign, if_neg sign]
      exact positive
  constructor
  · intro rounds'
    exact rounds'.unique rounds
  · intro same
    rw [same]
    exact rounds

end Binary64

end GridQuery
