import GridQuery.Json.Token
import GridQuery.Proofs.Decimal.Shortest
import GridQuery.Proofs.Json.ScalarText
import Mathlib.Data.List.TakeWhile

/-!
The text of a number tells the number. Read part by part, digits, fraction and exponent, the text of
a double gives a decimal with the value of the shortest one, wherever the point is put and whatever
zeros are added or dropped. It has a point or an exponent, which the text of an integer has not.
-/

namespace GridQuery.Json

/-- The decimal that an unsigned numeral is written for. -/
def decimal? (word : List Char) : Option Decimal := do
  let (fraction, rest) ← fractionDigits? (word.dropWhile Char.isDigit)
  let exponent ← exponentValue? rest
  return ⟨digitsValue (word.takeWhile Char.isDigit ++ fraction), exponent - fraction.length⟩

/-- The text is read, with this value. -/
def Denotes (word : List Char) (value : ℚ) : Prop :=
  ∃ decimal, decimal? word = some decimal ∧ decimal.value = value

def Digits (text : List Char) : Prop :=
  ∀ c ∈ text, c.isDigit = true

section

variable {digits more rest : List Char} {exponent : Int}

theorem digitsValue_eq (digits : List Char) :
    digitsValue digits = Nat.ofDigitChars 10 digits 0 := by
  rw [Nat.ofDigitChars_eq_foldl, digitsValue]
  congr
  funext value c
  rw [Nat.mul_comm]
  rfl

theorem digitsValue_append (digits more : List Char) :
    digitsValue (digits ++ more) = digitsValue digits * 10 ^ more.length + digitsValue more := by
  simp only [digitsValue_eq, Nat.ofDigitChars_append]
  rw [Nat.ofDigitChars_eq_ofDigitChars_zero, Nat.mul_comm]

theorem digitsValue_zeros (count : Nat) : digitsValue (zeros count) = 0 := by
  rw [digitsValue_eq, zeros, Nat.ofDigitChars_replicate_zero, Nat.mul_zero]

theorem digitsValue_zeros_append (count : Nat) (digits : List Char) :
    digitsValue (zeros count ++ digits) = digitsValue digits := by
  rw [digitsValue_append, digitsValue_zeros, Nat.zero_mul, Nat.zero_add]

theorem value_append_zeros (digits : List Char) (count : Nat) (exponent : Int) :
    Decimal.value ⟨digitsValue (digits ++ zeros count), exponent⟩ =
      digitsValue digits * 10 ^ (exponent + count) := by
  rw [Decimal.value, digitsValue_append, digitsValue_zeros, zeros, List.length_replicate,
    zpow_add₀ (by norm_num), zpow_natCast]
  push_cast
  ring

theorem digitsValue_decimalChars (n : Nat) : digitsValue (decimalChars n) = n := by
  rw [digitsValue_eq, decimalChars, Nat.ofDigitChars_ten_toDigits]

theorem digits_decimalChars (n : Nat) : Digits (decimalChars n) :=
  fun _ => Nat.isDigit_of_mem_toDigits (by decide) (by decide)

theorem digits_zeros (count : Nat) : Digits (zeros count) := by
  intro c member
  rw [List.eq_of_mem_replicate member]
  decide

theorem digits_append : Digits (digits ++ more) ↔ Digits digits ∧ Digits more :=
  List.forall_mem_append

/-- The zeros that are dropped were the last digits. -/
theorem exists_trimZeros (digits : List Char) :
    ∃ count, digits = trimZeros digits ++ zeros count := by
  refine ⟨(digits.reverse.takeWhile (· = '0')).length, ?_⟩
  have dropped : digits.reverse.takeWhile (· = '0') =
      zeros (digits.reverse.takeWhile (· = '0')).length :=
    List.eq_replicate_iff.mpr ⟨rfl, fun c member => by
      simpa only [decide_eq_true_eq] using List.mem_takeWhile_imp member⟩
  have joined := congrArg List.reverse
    (List.takeWhile_append_dropWhile (p := (· = '0')) (l := digits.reverse))
  rw [List.reverse_append, List.reverse_reverse, dropped, zeros, List.reverse_replicate] at joined
  exact joined.symm

/-- No digit stands here. -/
def Ended (rest : List Char) : Prop :=
  ∀ c ∈ rest.head?, c.isDigit = false

theorem takeWhile_digits (isDigits : Digits digits) (ended : Ended rest) :
    (digits ++ rest).takeWhile Char.isDigit = digits := by
  rw [List.takeWhile_append_of_pos isDigits]
  cases rest with
  | nil => simp
  | cons c rest => simp [ended c rfl]

theorem dropWhile_digits (isDigits : Digits digits) (ended : Ended rest) :
    (digits ++ rest).dropWhile Char.isDigit = rest := by
  rw [List.dropWhile_append_of_pos isDigits]
  cases rest with
  | nil => simp
  | cons c rest => simp [ended c rfl]

theorem decimal?_whole (isDigits : Digits digits) (mark : Ended rest)
    (pointless : ∀ tail, rest ≠ '.' :: tail) (read : exponentValue? rest = some exponent) :
    decimal? (digits ++ rest) = some ⟨digitsValue digits, exponent⟩ := by
  have none : fractionDigits? rest = some ([], rest) := by
    unfold fractionDigits?
    split
    next tail => exact absurd rfl (pointless tail)
    next => rfl
  rw [decimal?, takeWhile_digits isDigits mark, dropWhile_digits isDigits mark, none]
  simp [read]

theorem decimal?_fraction (isDigits : Digits digits) (isDigits' : Digits more) (given : more ≠ [])
    (mark : Ended rest) (read : exponentValue? rest = some exponent) :
    decimal? (digits ++ '.' :: (more ++ rest)) =
      some ⟨digitsValue (digits ++ more), exponent - more.length⟩ := by
  have point : Ended ('.' :: (more ++ rest)) := by
    rintro _ ⟨⟩
    decide
  rw [decimal?, takeWhile_digits isDigits point, dropWhile_digits isDigits point, fractionDigits?,
    takeWhile_digits isDigits' mark, dropWhile_digits isDigits' mark]
  simp [given, read]

/-- A sign is no part of an unsigned numeral. -/
theorem decimal?_sign (rest : List Char) : decimal? ('-' :: rest) = none := by
  have sign : ('-' : Char).isDigit = false := by decide
  have unmarked : exponentValue? ('-' :: rest) = none := by
    simp [exponentValue?]
  simp [decimal?, sign, fractionDigits?, unmarked]

theorem exponentValue?_exponent (exponent : Int) :
    exponentValue? ('e' :: (if exponent < 0 then '-' else '+') :: decimalChars exponent.natAbs) =
      some exponent := by
  have given : decimalChars exponent.natAbs ≠ [] := by simp [decimalChars]
  have digits : (decimalChars exponent.natAbs).all Char.isDigit = true :=
    List.all_eq_true.mpr (digits_decimalChars _)
  split_ifs with down
  · have size : -(exponent.natAbs : Int) = exponent := by omega
    simp [exponentValue?, digitsValue_decimalChars, given, digits, -Nat.cast_natAbs, size]
  · have size : (exponent.natAbs : Int) = exponent := by omega
    simp [exponentValue?, digitsValue_decimalChars, given, digits, -Nat.cast_natAbs, size]

end

theorem denotes_of_decimal? {word : List Char} {digits : Nat} {exponent place : Int}
    (read : decimal? word = some ⟨digits, exponent⟩) (same : exponent = place) :
    Denotes word (digits * 10 ^ place) :=
  ⟨_, read, by rw [Decimal.value, same]⟩

section

variable {digits rest : List Char} {exponent : Int} (isDigits : Digits digits)

include isDigits

/-- A point among the digits counts as many places as there are digits after it. -/
theorem denotes_split (count : Nat) (inside : count < digits.length) (mark : Ended rest)
    (read : exponentValue? rest = some exponent) :
    Denotes (digits.take count ++ '.' :: (digits.drop count ++ rest))
      (digitsValue digits * 10 ^ (exponent + count - digits.length)) := by
  have front : Digits (digits.take count) :=
    fun c member => isDigits c (List.mem_of_mem_take member)
  have back : Digits (digits.drop count) :=
    fun c member => isDigits c (List.mem_of_mem_drop member)
  have given : digits.drop count ≠ [] := fun none => by
    rw [List.drop_eq_nil_iff] at none
    omega
  have split := decimal?_fraction front back given mark read
  rw [List.take_append_drop, List.length_drop] at split
  exact denotes_of_decimal? split (by omega)

/-- Wherever the point is put, the numeral stands for the digits at their place. -/
theorem denotes_layout (given : digits ≠ []) (point : Int) :
    Denotes (layout digits point) (digitsValue digits * 10 ^ (point - digits.length)) := by
  have ended : Ended [] := by rintro _ ⟨⟩
  have positive : 0 < digits.length := List.length_pos_iff.mpr given
  obtain ⟨text, marked⟩ : ∃ text, (if point - 1 < 0 then '-' else '+') ::
      decimalChars (point - 1).natAbs = text := ⟨_, rfl⟩
  have read : exponentValue? ('e' :: text) = some (point - 1) :=
    marked ▸ exponentValue?_exponent (point - 1)
  have mark : Ended ('e' :: text) := by
    rintro _ ⟨⟩
    decide
  dsimp only [layout]
  rw [marked]
  split_ifs with whole inside small short
  · -- zeros up to the point and a zero after it
    have padded := digits_append.mpr ⟨isDigits, digits_zeros (point - digits.length).toNat⟩
    refine ⟨_, decimal?_fraction padded (digits_zeros 1) (by decide) ended rfl, ?_⟩
    rw [List.append_assoc, zeros, zeros, List.replicate_append_replicate]
    refine (value_append_zeros _ _ _).trans ?_
    congr 2
    simp only [List.length_replicate]
    omega
  · -- the point among the digits
    have split := denotes_split isDigits point.toNat (by omega) ended rfl
    rw [List.append_nil] at split
    rwa [show point - (digits.length : Int) = 0 + point.toNat - digits.length by omega]
  · -- zeros between the point and the digits
    have padded := digits_append.mpr ⟨digits_zeros (-point).toNat, isDigits⟩
    have split := decimal?_fraction (digits_zeros 1) padded (by simp [given]) ended rfl
    rw [List.append_nil, digitsValue_zeros_append, digitsValue_zeros_append, List.length_append,
      zeros, zeros, List.length_replicate] at split
    exact denotes_of_decimal? split (by omega)
  · exact denotes_of_decimal? (decimal?_whole isDigits mark (by rintro _ ⟨⟩) read) (by omega)
  · rw [List.append_assoc, List.cons_append,
      show point - (digits.length : Int) = point - 1 + (1 : Nat) - digits.length by omega]
    exact denotes_split isDigits 1 (by omega) mark read

end

theorem layout_marked (digits : List Char) (point : Int) :
    ∃ mark ∈ layout digits point, mark.isDigit = false := by
  dsimp only [layout]
  split_ifs with whole inside small
  · exact ⟨'.', by simp, by decide⟩
  · exact ⟨'.', by simp, by decide⟩
  · exact ⟨'.', by simp, by decide⟩
  all_goals exact ⟨'e', by simp, by decide⟩

/-- The zeros at the end of the digits of a double are dropped, their places are kept. -/
theorem denotes_trimmed {decimal : Decimal} (nonzero : decimal.digits ≠ 0) :
    Denotes (layout (trimZeros (decimalChars decimal.digits))
      ((decimalChars decimal.digits).length + decimal.exponent)) decimal.value := by
  obtain ⟨count, whole⟩ := exists_trimZeros (decimalChars decimal.digits)
  have kept := (digits_append.mp (whole ▸ digits_decimalChars decimal.digits)).1
  have given : trimZeros (decimalChars decimal.digits) ≠ [] := by
    intro none
    refine nonzero ?_
    rw [← digitsValue_decimalChars decimal.digits, whole, none, List.nil_append, digitsValue_zeros]
  have value := value_append_zeros (trimZeros (decimalChars decimal.digits)) count decimal.exponent
  rw [← whole, digitsValue_decimalChars] at value
  have places := congrArg List.length whole
  rw [List.length_append, zeros, List.length_replicate] at places
  rw [show decimal.value = _ from value, show decimal.exponent + count =
    (decimalChars decimal.digits).length + decimal.exponent -
      (trimZeros (decimalChars decimal.digits)).length by omega]
  exact denotes_layout kept given _

/-- The text of a number is an unsigned numeral after its sign. -/
def signed (negative : Bool) (body : List Char) : List Char :=
  if negative then '-' :: body else body

theorem signed_tells {negative negative' : Bool} {body body' : List Char} {value value' : ℚ}
    (read : Denotes body value) (read' : Denotes body' value')
    (same : signed negative body = signed negative' body') :
    negative = negative' ∧ body = body' := by
  have unsigned {rest : List Char} {value : ℚ} : ¬ Denotes ('-' :: rest) value := by
    rintro ⟨decimal, read, _⟩
    rw [decimal?_sign] at read
    cases read
  cases negative <;> cases negative'
  · exact ⟨rfl, same⟩
  · obtain rfl : body = '-' :: body' := same
    exact absurd read unsigned
  · obtain rfl : '-' :: body = body' := same
    exact absurd read' unsigned
  · exact ⟨rfl, (List.cons.inj same).2⟩

theorem exists_doubleChars (x : Binary64) : ∃ body, doubleChars x = signed x.negative body ∧
    Denotes body (Decimal.shortest x).value ∧ ∃ mark ∈ body, mark.isDigit = false := by
  refine ⟨_, rfl, ?_⟩
  split_ifs with zero
  · refine ⟨⟨⟨0, -1⟩, rfl, ?_⟩, '.', by decide, by decide⟩
    simp [Decimal.value, zero]
  · exact ⟨denotes_trimmed zero, layout_marked _ _⟩

theorem intChars_eq (value : Int) :
    intChars value = signed (decide (value < 0)) (decimalChars value.natAbs) := by
  by_cases negative : value < 0 <;> simp [intChars, signed, negative]

theorem denotes_decimalChars (n : Nat) : Denotes (decimalChars n) n := by
  have ended : Ended [] := by rintro _ ⟨⟩
  have read := decimal?_whole (digits_decimalChars n) ended (by rintro _ ⟨⟩) rfl
  rw [List.append_nil, digitsValue_decimalChars] at read
  exact ⟨_, read, by simp [Decimal.value]⟩

theorem intChars_ne_doubleChars (value : Int) (x : Binary64) : intChars value ≠ doubleChars x := by
  intro same
  obtain ⟨body, text, read, mark, inside, noDigit⟩ := exists_doubleChars x
  rw [intChars_eq, text] at same
  obtain ⟨_, rfl⟩ := signed_tells (denotes_decimalChars _) read same
  cases noDigit.symm.trans (digits_decimalChars _ mark inside)

theorem intChars_injective {value other : Int} (same : intChars value = intChars other) :
    value = other := by
  rw [intChars_eq, intChars_eq] at same
  obtain ⟨signs, digits⟩ := signed_tells (denotes_decimalChars _) (denotes_decimalChars _) same
  have sizes := decimalChars_injective digits
  rw [decide_eq_decide] at signs
  omega

theorem doubleChars_injective {x y : Binary64} (same : doubleChars x = doubleChars y) : x = y := by
  obtain ⟨body, text, read, _⟩ := exists_doubleChars x
  obtain ⟨body', text', read', _⟩ := exists_doubleChars y
  rw [text, text'] at same
  obtain ⟨signs, rfl⟩ := signed_tells read read' same
  obtain ⟨decimal, found, value⟩ := read
  obtain ⟨decimal', found', value'⟩ := read'
  cases found.symm.trans found'
  have sizes := Decimal.magnitude_eq_of_value_eq (value.symm.trans value')
  cases x
  cases y
  cases signs
  cases sizes
  rfl

/-- Different numbers have different texts. -/
theorem numbersTold : NumbersTold fun _ => True := by
  intro number other _ _ same
  cases number with
  | integer value =>
    cases other with
    | integer value' => rw [intChars_injective same]
    | double x => exact absurd same (intChars_ne_doubleChars value x)
  | double x =>
    cases other with
    | integer value => exact absurd same.symm (intChars_ne_doubleChars value x)
    | double y => rw [doubleChars_injective same]

end GridQuery.Json
