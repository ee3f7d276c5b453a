import GridQuery.Decimal.Shortest
import Mathlib.Algebra.Order.Field.Power
import Mathlib.Data.Rat.Defs
import Mathlib.Order.Monotone.Basic
import Mathlib.Tactic.FieldSimp
import Mathlib.Tactic.Linarith
import Mathlib.Tactic.Positivity
import Mathlib.Tactic.Ring
import Mathlib.Tactic.SplitIfs

/-!
The shortest decimal of a double lies in the interval of reals that round to the double. Intervals
of different magnitudes have no decimal in common, so the decimal tells the magnitude.
-/

namespace GridQuery

namespace Binary64

def significandOf (magnitude : Nat) : Nat :=
  if magnitude < normalUnit then magnitude else normalUnit + magnitude % normalUnit

def exponentOf (magnitude : Nat) : Int :=
  (max 1 (magnitude / normalUnit) : Nat) - 1075

/-- The distance from the double of a magnitude to the next greater one. -/
def spacing (magnitude : Nat) : ℚ :=
  2 ^ exponentOf magnitude

/-- The absolute value of the doubles of a magnitude. -/
def size (magnitude : Nat) : ℚ :=
  significandOf magnitude * spacing magnitude

/-- Halfway from a magnitude to the next one. -/
def boundary (magnitude : Nat) : ℚ :=
  size magnitude + spacing magnitude / 2

theorem normalUnit_eq : normalUnit = 4503599627370496 :=
  rfl

theorem cast_lastSignificand : ((2 * normalUnit - 1 : Nat) : ℚ) = 2 * normalUnit - 1 := by
  rw [normalUnit_eq]
  norm_num

/-- The next magnitude has the next significand, or it is where the spacing doubles. -/
theorem succ_cases (magnitude : Nat) :
    (significandOf (magnitude + 1) = significandOf magnitude + 1 ∧
      exponentOf (magnitude + 1) = exponentOf magnitude ∧
      ¬ (significandOf (magnitude + 1) = normalUnit ∧ exponentOf (magnitude + 1) > -1074)) ∨
    significandOf magnitude = 2 * normalUnit - 1 ∧
      exponentOf (magnitude + 1) = exponentOf magnitude + 1 ∧
      significandOf (magnitude + 1) = normalUnit ∧ exponentOf (magnitude + 1) > -1074 := by
  unfold significandOf exponentOf
  split_ifs <;> rw [normalUnit_eq] at * <;> omega

theorem spacing_pos (magnitude : Nat) : 0 < spacing magnitude := by
  unfold spacing
  positivity

theorem size_succ (magnitude : Nat) :
    size (magnitude + 1) = size magnitude + spacing magnitude := by
  rw [size, size, spacing, spacing]
  rcases succ_cases magnitude with ⟨next, same, _⟩ | ⟨full, doubled, next, _⟩
  · rw [next, same]
    push_cast
    ring
  · rw [full, next, doubled, cast_lastSignificand, zpow_add_one₀ two_ne_zero]
    ring

theorem boundary_pos (magnitude : Nat) : 0 < boundary magnitude := by
  have step := spacing_pos magnitude
  rw [boundary, size]
  positivity

theorem boundary_strictMono : StrictMono boundary := by
  refine strictMono_nat_of_lt_succ fun magnitude => ?_
  have here := spacing_pos magnitude
  have there := spacing_pos (magnitude + 1)
  rw [boundary, boundary, size_succ]
  linarith

end Binary64

namespace Decimal

def value (decimal : Decimal) : ℚ :=
  decimal.digits * 10 ^ decimal.exponent

theorem pow_toNat {base : ℚ} (nonzero : base ≠ 0) (exponent : Int) :
    base ^ exponent.toNat = base ^ exponent * base ^ (-exponent).toNat := by
  rw [← zpow_natCast, ← zpow_natCast, ← zpow_add₀ nonzero]
  congr 1
  omega

theorem exists_scale (binary decimal : Int) : ∃ scale : ℚ, 0 < scale ∧
    ((commonScale binary decimal).1 : ℚ) = 2 ^ binary * scale ∧
      ((commonScale binary decimal).2 : ℚ) = 10 ^ decimal * scale := by
  have powers (base power : Nat) : Nat.pow base power = base ^ power := rfl
  refine ⟨2 ^ (-binary).toNat * 10 ^ (-decimal).toNat, by positivity, ?_, ?_⟩
  · simp only [commonScale, powers]
    push_cast
    rw [pow_toNat two_ne_zero]
    ring
  · simp only [commonScale, powers]
    push_cast
    rw [pow_toNat (by norm_num)]
    ring

section

variable {binary decimal : Int} {bound digits : Nat}

theorem exists_scaled (binary decimal : Int) (bound digits : Nat) : ∃ scale : ℚ, 0 < scale ∧
    ((bound * (commonScale binary decimal).1 : Nat) : ℚ) = bound * 2 ^ binary * scale ∧
      ((digits * (commonScale binary decimal).2 : Nat) : ℚ) = digits * 10 ^ decimal * scale := by
  obtain ⟨scale, positive, unit, grid⟩ := exists_scale binary decimal
  exact ⟨scale, positive, by rw [Nat.cast_mul, unit, mul_assoc],
    by rw [Nat.cast_mul, grid, mul_assoc]⟩

/-- Bounds in units of a power of two compare as the reals that they stand for. -/
theorem scaled_le_iff :
    bound * (commonScale binary decimal).1 ≤ digits * (commonScale binary decimal).2 ↔
      (bound : ℚ) * 2 ^ binary ≤ digits * 10 ^ decimal := by
  obtain ⟨scale, positive, bound, point⟩ := exists_scaled binary decimal bound digits
  rw [← Nat.cast_le (α := ℚ), bound, point, mul_le_mul_iff_left₀ positive]

theorem le_scaled_iff :
    digits * (commonScale binary decimal).2 ≤ bound * (commonScale binary decimal).1 ↔
      (digits : ℚ) * 10 ^ decimal ≤ bound * 2 ^ binary := by
  obtain ⟨scale, positive, bound, point⟩ := exists_scaled binary decimal bound digits
  rw [← Nat.cast_le (α := ℚ), bound, point, mul_le_mul_iff_left₀ positive]

end

namespace Interval

def lower (interval : Interval) : ℚ :=
  interval.low * 2 ^ interval.exponent

def center (interval : Interval) : ℚ :=
  interval.middle * 2 ^ interval.exponent

def upper (interval : Interval) : ℚ :=
  interval.high * 2 ^ interval.exponent

variable {interval : Interval} {decimal : Decimal}

theorem contains_iff : interval.contains decimal = true ↔
    if interval.closed then interval.lower ≤ decimal.value ∧ decimal.value ≤ interval.upper
    else interval.lower < decimal.value ∧ decimal.value < interval.upper := by
  simp only [contains]
  split_ifs
  · rw [Bool.and_eq_true, decide_eq_true_eq, decide_eq_true_eq, scaled_le_iff, le_scaled_iff]
    rfl
  · rw [Bool.and_eq_true, decide_eq_true_eq, decide_eq_true_eq, ← Nat.not_le, ← Nat.not_le,
      le_scaled_iff, scaled_le_iff, not_le, not_le]
    rfl

theorem within_of_contains (inside : interval.contains decimal = true) :
    interval.lower ≤ decimal.value ∧ decimal.value ≤ interval.upper := by
  rw [contains_iff] at inside
  split_ifs at inside
  · exact inside
  · exact ⟨inside.1.le, inside.2.le⟩

theorem contains_of_between (above : interval.lower < decimal.value)
    (below : decimal.value < interval.upper) : interval.contains decimal = true := by
  rw [contains_iff]
  split_ifs
  · exact ⟨above.le, below.le⟩
  · exact ⟨above, below⟩

theorem closed_of_end (inside : interval.contains decimal = true)
    (atEnd : decimal.value = interval.lower ∨ decimal.value = interval.upper) :
    interval.closed = true := by
  by_contra isOpen
  rw [contains_iff, if_neg isOpen] at inside
  rcases atEnd with same | same
  · exact absurd inside.1 (by rw [same]; exact lt_irrefl _)
  · exact absurd inside.2 (by rw [same]; exact lt_irrefl _)

end Interval

section

variable {interval : Interval} {decimal : Decimal} {power : Int}

theorem reaches_iff {middle : Nat} {exponent : Int} :
    reaches middle exponent power = true ↔ (10 : ℚ) ^ power ≤ middle * 2 ^ exponent := by
  have scaled : 1 * (commonScale exponent power).2 ≤ middle * (commonScale exponent power).1 ↔
      ((1 : Nat) : ℚ) * 10 ^ power ≤ middle * 2 ^ exponent := le_scaled_iff
  rw [one_mul, Nat.cast_one, one_mul] at scaled
  rw [← scaled]
  simp only [reaches, decide_eq_true_eq]

theorem contains_of_neighbour? (found : neighbour? interval power = some decimal) :
    interval.contains decimal = true := by
  dsimp only [neighbour?] at found
  split at found
  next lower upper =>
    split at found
    · cases found
      exact lower
    · cases found
      exact upper
  next lower _ =>
    cases found
    exact lower
  next _ upper =>
    cases found
    exact upper
  next => cases found

/-- On a grid finer than the interval a point beside the middle lies in the interval. -/
theorem exists_neighbour? (above : interval.lower < interval.center)
    (below : interval.center < interval.upper)
    (fine : (10 : ℚ) ^ power < interval.upper - interval.lower) :
    ∃ decimal, neighbour? interval power = some decimal := by
  have gridPos : 0 < (commonScale interval.exponent power).2 := by
    obtain ⟨scale, positive, _, grid⟩ := exists_scale interval.exponent power
    rw [← Nat.cast_pos (α := ℚ), grid]
    positivity
  obtain ⟨digits, place⟩ : ∃ digits, interval.middle * (commonScale interval.exponent power).1 /
      (commonScale interval.exponent power).2 = digits := ⟨_, rfl⟩
  have before : Decimal.value ⟨digits, power⟩ ≤ interval.center := by
    refine le_scaled_iff.mp ?_
    rw [← place]
    exact Nat.div_mul_le_self _ _
  have after : interval.center < Decimal.value ⟨digits + 1, power⟩ := by
    refine not_le.mp fun reached => ?_
    have scaled := (Nat.div_lt_iff_lt_mul gridPos).mp (Nat.lt_succ_of_le (Nat.le_of_eq place))
    exact absurd (le_scaled_iff.mpr reached) (Nat.not_le.mpr scaled)
  have step : Decimal.value ⟨digits + 1, power⟩ = Decimal.value ⟨digits, power⟩ + 10 ^ power := by
    simp only [Decimal.value]
    push_cast
    ring
  have inside : interval.contains ⟨digits, power⟩ = true ∨
      interval.contains ⟨digits + 1, power⟩ = true := by
    rcases lt_or_ge interval.lower (Decimal.value ⟨digits, power⟩) with near | far
    · exact .inl (Interval.contains_of_between near (by linarith))
    · exact .inr (Interval.contains_of_between (by linarith) (by linarith))
  dsimp only [neighbour?]
  rw [place]
  cases lower : interval.contains ⟨digits, power⟩ with
  | true =>
    cases interval.contains ⟨digits + 1, power⟩ with
    | true =>
      dsimp only
      split
      · exact ⟨_, rfl⟩
      · exact ⟨_, rfl⟩
    | false => exact ⟨_, rfl⟩
  | false =>
    have upper := inside.resolve_left (by rw [lower]; exact Bool.false_ne_true)
    rw [upper]
    exact ⟨_, rfl⟩

theorem contains_search (count : Nat)
    (found : ∃ decimal, neighbour? interval (power - count) = some decimal) :
    interval.contains (search interval power count) = true := by
  induction count generalizing power with
  | zero =>
    obtain ⟨decimal, found⟩ := found
    rw [Nat.cast_zero, sub_zero] at found
    rw [search, found]
    exact contains_of_neighbour? found
  | succ more ih =>
    rw [search]
    cases here : neighbour? interval power with
    | some decimal => exact contains_of_neighbour? here
    | none =>
      refine ih ?_
      rwa [sub_sub, add_comm, ← Nat.cast_succ]

end

/-- A power of ten of which some power is at most one of the power of two. -/
theorem ten_zpow_le_of_zpow_le {ten two : Int} {count : Nat} (positive : count ≠ 0)
    (below : ((10 : ℚ) ^ count) ^ ten ≤ 2 ^ (count * two)) : (10 : ℚ) ^ ten ≤ 2 ^ two := by
  refine le_of_pow_le_pow_left₀ positive (by positivity) ?_
  calc ((10 : ℚ) ^ ten) ^ count = ((10 : ℚ) ^ count) ^ ten := by
        rw [← zpow_natCast, ← zpow_mul, mul_comm, zpow_mul, zpow_natCast]
    _ ≤ 2 ^ (count * two) := below
    _ = (2 ^ two) ^ count := by rw [← zpow_natCast, ← zpow_mul, mul_comm]

/-- Powers of ten against powers of two, by `10 ^ 59 < 2 ^ 196` and `2 ^ 93 < 10 ^ 28`. -/
theorem ten_zpow_le_two_zpow {ten two : Int} (rising : 0 ≤ ten → 196 * ten ≤ 59 * two)
    (falling : ten < 0 → 93 * ten ≤ 28 * two) : (10 : ℚ) ^ ten ≤ 2 ^ two := by
  rcases le_or_gt 0 ten with up | down
  · refine ten_zpow_le_of_zpow_le (show 59 ≠ 0 by decide) ?_
    calc ((10 : ℚ) ^ 59) ^ ten ≤ ((2 : ℚ) ^ 196) ^ ten :=
          zpow_le_zpow_left₀ up (by norm_num) (by norm_num)
      _ = (2 : ℚ) ^ (196 * ten) := by rw [zpow_mul]; rfl
      _ ≤ (2 : ℚ) ^ (((59 : Nat) : Int) * two) := zpow_le_zpow_right₀ (by norm_num) (rising up)
  · refine ten_zpow_le_of_zpow_le (show 28 ≠ 0 by decide) ?_
    have mirrored : ((2 : ℚ) ^ 93) ^ (-ten) ≤ ((10 : ℚ) ^ 28) ^ (-ten) :=
      zpow_le_zpow_left₀ (by omega) (by norm_num) (by norm_num)
    rw [zpow_neg, zpow_neg, inv_le_inv₀ (by positivity) (by positivity)] at mirrored
    calc ((10 : ℚ) ^ 28) ^ ten ≤ ((2 : ℚ) ^ 93) ^ ten := mirrored
      _ = (2 : ℚ) ^ (93 * ten) := by rw [zpow_mul]; rfl
      _ ≤ (2 : ℚ) ^ (((28 : Nat) : Int) * two) := zpow_le_zpow_right₀ (by norm_num) (falling down)

/-- The leading digit of the middle stands at no lower power of ten. -/
theorem leadingPower_le {middle : Nat} {exponent : Int} (positive : middle ≠ 0)
    (small : middle < 2 ^ 55) (near : -20000 ≤ exponent ∧ exponent ≤ 20000) :
    (10 : ℚ) ^ leadingPower middle exponent ≤ middle * 2 ^ exponent := by
  dsimp only [leadingPower]
  split
  next reached => exact reaches_iff.mp reached
  next =>
    split
    next reached => exact reaches_iff.mp reached
    next =>
      have length : middle.log2 < 55 := (Nat.log2_lt positive).mpr small
      have leading : (2 : ℚ) ^ (middle.log2 : Int) ≤ middle := by
        rw [zpow_natCast]
        exact_mod_cast Nat.log2_self_le positive
      calc (10 : ℚ) ^ (((middle.log2 : Int) + exponent) * 30103 / 100000 - 1)
          ≤ 2 ^ ((middle.log2 : Int) + exponent) :=
            ten_zpow_le_two_zpow (by omega) (by omega)
        _ = 2 ^ (middle.log2 : Int) * 2 ^ exponent := zpow_add₀ two_ne_zero _ _
        _ ≤ middle * 2 ^ exponent := by gcongr

namespace Interval

open Binary64 (significandOf exponentOf spacing size boundary)

variable {x : Binary64}

theorem significandOf_bounds (nonzero : x.magnitude ≠ 0) :
    1 ≤ significandOf x.magnitude ∧ significandOf x.magnitude < 2 * normalUnit := by
  unfold significandOf
  split_ifs <;> rw [Binary64.normalUnit_eq] at * <;> omega

/-- The unit of an interval is a quarter of the spacing. -/
theorem unit_around (x : Binary64) : (2 : ℚ) ^ (x.exponent - 2) = spacing x.magnitude / 4 := by
  rw [zpow_sub₀ two_ne_zero]
  norm_num
  rfl

theorem center_around (x : Binary64) : (around x).center = size x.magnitude := by
  simp only [center, around, unit_around, size]
  push_cast
  change 4 * (significandOf x.magnitude : ℚ) * _ = _
  ring

theorem upper_around (x : Binary64) : (around x).upper = boundary x.magnitude := by
  simp only [upper, around, unit_around, boundary, size]
  push_cast
  change (4 * (significandOf x.magnitude : ℚ) + 2) * _ = _
  ring

/-- Below a double the interval begins halfway from the double before. -/
theorem lower_around {magnitude : Nat} (next : x.magnitude = magnitude + 1) :
    (around x).lower = boundary magnitude := by
  have above := (significandOf_bounds (x := x) (by omega)).1
  have low : (around x).low = if significandOf x.magnitude = normalUnit ∧
      exponentOf x.magnitude > -1074 then 4 * significandOf x.magnitude - 1
      else 4 * significandOf x.magnitude - 2 := rfl
  have unit : (2 : ℚ) ^ (around x).exponent = spacing x.magnitude / 4 := unit_around x
  have half : spacing x.magnitude / 4 = spacing (magnitude + 1) / 4 := by rw [next]
  rw [lower, unit, low, boundary, size]
  rcases Binary64.succ_cases magnitude with ⟨following, same, inner⟩ | ⟨full, doubled, edge⟩
  · rw [← next] at following same inner
    rw [if_neg inner, spacing, same, Nat.cast_sub (by omega), following, spacing]
    push_cast
    ring
  · rw [← next] at doubled edge
    rw [if_pos edge, edge.1, full, Binary64.cast_lastSignificand, spacing, doubled, spacing,
      zpow_add_one₀ two_ne_zero, Nat.cast_sub (by rw [Binary64.normalUnit_eq]; omega)]
    push_cast
    ring

/-- Seventeen digits make a grid that is finer than the interval. -/
theorem around_wide (nonzero : x.magnitude ≠ 0) :
    (around x).center < 10 ^ 16 * ((around x).upper - (around x).lower) := by
  have bounds := significandOf_bounds nonzero
  have counted : (around x).middle + 10 ^ 16 * (around x).low < 10 ^ 16 * (around x).high := by
    change 4 * significandOf x.magnitude + 10 ^ 16 * (if significandOf x.magnitude = normalUnit ∧
      exponentOf x.magnitude > -1074 then 4 * significandOf x.magnitude - 1
      else 4 * significandOf x.magnitude - 2) < 10 ^ 16 * (4 * significandOf x.magnitude + 2)
    rw [Binary64.normalUnit_eq] at *
    split_ifs <;> omega
  have cast : ((around x).middle : ℚ) + 10 ^ 16 * (around x).low < 10 ^ 16 * (around x).high := by
    exact_mod_cast counted
  have unit : (0 : ℚ) < 2 ^ (around x).exponent := by positivity
  rw [center, upper, lower, ← sub_mul, ← mul_assoc]
  exact mul_lt_mul_of_pos_right (by linarith) unit

theorem closed_around : (around x).closed = true ↔ x.magnitude % 2 = 0 := by
  change decide (significandOf x.magnitude % 2 = 0) = true ↔ _
  unfold significandOf
  rw [decide_eq_true_eq, Binary64.normalUnit_eq]
  split_ifs <;> omega

end Interval

section

open Binary64 (size boundary)
open Decimal.Interval

variable {x y : Binary64}

theorem contains_shortest (nonzero : x.magnitude ≠ 0) :
    (around x).contains (shortest x) = true := by
  obtain ⟨before, next⟩ := Nat.exists_eq_succ_of_ne_zero nonzero
  have above : (around x).lower < (around x).center := by
    have gap := Binary64.spacing_pos before
    rw [lower_around next, center_around, next, Binary64.size_succ, boundary]
    linarith
  have below : (around x).center < (around x).upper := by
    have gap := Binary64.spacing_pos x.magnitude
    rw [upper_around, center_around, boundary]
    linarith
  have bounds := significandOf_bounds nonzero
  have middle : (around x).middle = 4 * Binary64.significandOf x.magnitude := rfl
  have exponent : (around x).exponent =
      ((max 1 (x.magnitude / normalUnit) : Nat) : Int) - 1075 - 2 := rfl
  have finite := x.finite
  rw [infinityMagnitude] at finite
  rw [Binary64.normalUnit_eq] at *
  have leading : (10 : ℚ) ^ leadingPower (around x).middle (around x).exponent ≤
      (around x).center := leadingPower_le (by omega) (by omega) (by omega)
  rw [shortest, if_neg (by simpa only [Binary64.isZero, decide_eq_true_eq] using nonzero)]
  refine contains_search 16 (exists_neighbour? above below ?_)
  have wide := around_wide nonzero
  rw [zpow_sub₀ (by norm_num), div_lt_iff₀ (by positivity)]
  calc (10 : ℚ) ^ leadingPower (around x).middle (around x).exponent ≤ (around x).center := leading
    _ < 10 ^ 16 * ((around x).upper - (around x).lower) := wide
    _ = ((around x).upper - (around x).lower) * (10 : ℚ) ^ ((16 : Nat) : Int) := by
      rw [zpow_natCast, mul_comm]

theorem value_shortest_zero (zero : x.magnitude = 0) : (shortest x).value = 0 := by
  rw [shortest, if_pos (by simpa only [Binary64.isZero, decide_eq_true_eq] using zero), value,
    Nat.cast_zero, zero_mul]

theorem value_shortest_le (x : Binary64) : (shortest x).value ≤ boundary x.magnitude := by
  by_cases zero : x.magnitude = 0
  · rw [value_shortest_zero zero]
    exact (Binary64.boundary_pos _).le
  · rw [← upper_around]
    exact (within_of_contains (contains_shortest zero)).2

theorem le_value_shortest {before : Nat} (next : x.magnitude = before + 1) :
    boundary before ≤ (shortest x).value := by
  rw [← lower_around next]
  exact (within_of_contains (contains_shortest (by omega))).1

/-- Two neighbouring intervals are not both closed, so not even their common end is shared. -/
theorem not_lt_of_value_eq (same : (shortest x).value = (shortest y).value) :
    ¬ x.magnitude < y.magnitude := by
  intro less
  obtain ⟨before, next⟩ := Nat.exists_eq_succ_of_ne_zero (Nat.ne_zero_of_lt less)
  have fromBelow := le_value_shortest next
  have fromAbove := value_shortest_le x
  have touching : before ≤ x.magnitude :=
    Binary64.boundary_strictMono.le_iff_le.mp (by linarith)
  obtain rfl : before = x.magnitude := by omega
  have meeting : (shortest x).value = boundary x.magnitude := by linarith
  have upperClosed := closed_of_end (contains_shortest (x := y) (by omega))
    (.inl (by rw [← same, meeting, lower_around next]))
  have nonzero : x.magnitude ≠ 0 := by
    intro zero
    rw [value_shortest_zero zero] at meeting
    exact absurd meeting (Binary64.boundary_pos _).ne
  have lowerClosed := closed_of_end (contains_shortest nonzero)
    (.inr (by rw [meeting, upper_around]))
  rw [closed_around] at upperClosed lowerClosed
  omega

theorem magnitude_eq_of_value_eq (same : (shortest x).value = (shortest y).value) :
    x.magnitude = y.magnitude := by
  have up := not_lt_of_value_eq same
  have down := not_lt_of_value_eq same.symm
  omega

end

end Decimal

end GridQuery
