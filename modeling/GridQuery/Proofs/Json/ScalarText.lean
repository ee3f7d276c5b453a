import GridQuery.Proofs.Text.Telling
import Mathlib.Tactic.SplitIfs

/-!
The texts of JSON scalars tell the scalars. A string tells itself whatever follows, since every
character is escaped by a text that is no beginning of another one; the other scalars are words.
That the text of a double tells it is not shown here: it is taken of the numbers in question.
-/

namespace GridQuery.Json

open Text

/-- The characters that are escaped. -/
def escaped : List Char :=
  '"' :: '\\' :: (List.range 0x20).map Char.ofNat

theorem escapeChar_of_mem : ∀ c ∈ escaped, (escapeChar c).head? = some '\\' := by
  have checked : escaped.all (fun c => (escapeChar c).head? = some '\\') = true := by decide
  simpa only [List.all_eq_true, decide_eq_true_eq] using checked

theorem eq_of_escapeChar_isPrefix : ∀ c ∈ escaped, ∀ d ∈ escaped,
    escapeChar c <+: escapeChar d → c = d := by
  have checked : (escaped.all fun c => escaped.all fun d =>
      !(escapeChar c).isPrefixOf (escapeChar d) || c == d) = true := by decide +kernel
  simp only [List.all_eq_true, Bool.or_eq_true, beq_iff_eq] at checked
  intro c member d member' begins
  refine (checked c member d member').resolve_left ?_
  simp [List.isPrefixOf_iff_prefix.mpr begins]

theorem escapeChar_of_not_mem {c : Char} (plain : c ∉ escaped) : escapeChar c = [c] := by
  have control : ¬ c.toNat < 0x20 := by
    intro control
    refine plain (List.mem_cons_of_mem _ (List.mem_cons_of_mem _ (List.mem_map.mpr ?_)))
    exact ⟨c.toNat, List.mem_range.mpr control, Char.ofNat_toNat c⟩
  have unlike (d : Char) (special : d ∈ escaped) : c ≠ d := by
    rintro rfl
    exact plain special
  rw [escapeChar, if_neg (unlike _ (by decide)), if_neg (unlike _ (by decide)),
    if_neg (unlike _ (by decide)), if_neg (unlike _ (by decide)), if_neg (unlike _ (by decide)),
    if_neg (unlike _ (by decide)), if_neg (unlike _ (by decide)), if_neg control]

theorem escapeChar_unlike {c d : Char} {rest rest' : List Char} (special : c ∈ escaped)
    (plain : d ∉ escaped) : escapeChar c ++ rest ≠ escapeChar d ++ rest' := by
  intro same
  obtain ⟨text, begins⟩ := List.head?_eq_some_iff.mp (escapeChar_of_mem c special)
  rw [begins, escapeChar_of_not_mem plain] at same
  obtain ⟨rfl, _⟩ := List.cons.inj same
  exact plain (by decide)

theorem escapeChar_tells {c d : Char} {rest rest' : List Char}
    (same : escapeChar c ++ rest = escapeChar d ++ rest') : c = d ∧ rest = rest' := by
  by_cases first : c ∈ escaped <;> by_cases second : d ∈ escaped
  · rcases List.append_eq_append_iff.mp same with ⟨more, longer, _⟩ | ⟨more, longer, _⟩
    · obtain rfl := eq_of_escapeChar_isPrefix c first d second ⟨more, longer.symm⟩
      exact ⟨rfl, List.append_cancel_left same⟩
    · obtain rfl := eq_of_escapeChar_isPrefix d second c first ⟨more, longer.symm⟩
      exact ⟨rfl, List.append_cancel_left same⟩
  · exact absurd same (escapeChar_unlike first second)
  · exact absurd same.symm (escapeChar_unlike second first)
  · rw [escapeChar_of_not_mem first, escapeChar_of_not_mem second] at same
    exact List.cons.inj same

theorem escapeChar_ne_quote (c : Char) (rest rest' : List Char) :
    '"' :: rest ≠ escapeChar c ++ rest' := by
  intro same
  by_cases special : c ∈ escaped
  · obtain ⟨text, begins⟩ := List.head?_eq_some_iff.mp (escapeChar_of_mem c special)
    rw [begins] at same
    exact absurd (List.cons.inj same).1 (by decide)
  · rw [escapeChar_of_not_mem special] at same
    obtain ⟨rfl, _⟩ := List.cons.inj same
    exact special (by decide)

theorem escaped_tells {text other rest rest' : List Char}
    (same : text.flatMap escapeChar ++ '"' :: rest = other.flatMap escapeChar ++ '"' :: rest') :
    text = other ∧ rest = rest' := by
  induction text generalizing other with
  | nil =>
    cases other with
    | nil => exact ⟨rfl, (List.cons.inj same).2⟩
    | cons d other =>
      rw [List.flatMap_cons, List.append_assoc] at same
      exact absurd same (escapeChar_ne_quote _ _ _)
  | cons c text ih =>
    cases other with
    | nil =>
      rw [List.flatMap_cons, List.append_assoc] at same
      exact absurd same.symm (escapeChar_ne_quote _ _ _)
    | cons d other =>
      simp only [List.flatMap_cons, List.append_assoc] at same
      obtain ⟨rfl, later⟩ := escapeChar_tells same
      obtain ⟨rfl, continued⟩ := ih later
      exact ⟨rfl, continued⟩

/-- A quoted text tells itself, whatever follows. -/
theorem quoted_tells {text other : String} {rest rest' : List Char}
    (same : quoted text ++ rest = quoted other ++ rest') : text = other ∧ rest = rest' := by
  simp only [quoted, List.append_assoc, List.cons_append, List.nil_append, List.cons.injEq,
    true_and] at same
  obtain ⟨chars, continued⟩ := escaped_tells same
  exact ⟨String.ext_iff.mpr chars, continued⟩

/-- The characters of numbers. -/
def isNumberChar (c : Char) : Bool :=
  c.isDigit || c = '.' || c = 'e' || c = '+' || c = '-'

theorem isWordPart_of_isNumberChar {c : Char} (number : isNumberChar c = true) :
    isWordPart c = true := by
  simp only [isNumberChar, Bool.or_eq_true, decide_eq_true_eq] at number
  rcases number with (((digit | rfl) | rfl) | rfl) | rfl
  · simp [isWordPart, isNameChar, Char.isAlphanum, digit]
  all_goals decide

def IsNumeric (text : List Char) : Prop :=
  ∀ c ∈ text, isNumberChar c = true

instance (text : List Char) : Decidable (IsNumeric text) :=
  List.decidableBAll (isNumberChar · = true) text

theorem isNumeric_append {left right : List Char} :
    IsNumeric (left ++ right) ↔ IsNumeric left ∧ IsNumeric right :=
  List.forall_mem_append

theorem isNumeric_cons {c : Char} {text : List Char} :
    IsNumeric (c :: text) ↔ isNumberChar c = true ∧ IsNumeric text :=
  List.forall_mem_cons

theorem isNumeric_decimalChars (n : Nat) : IsNumeric (decimalChars n) := by
  intro c member
  have digit := Nat.isDigit_of_mem_toDigits (by decide) (by decide) member
  simp [isNumberChar, digit]

theorem isNumeric_zeros (count : Nat) : IsNumeric (zeros count) := by
  intro c member
  rw [List.eq_of_mem_replicate member]
  decide

section

variable {digits : List Char} (numeric : IsNumeric digits)

include numeric

theorem IsNumeric.trimZeros : IsNumeric (trimZeros digits) := fun c member =>
  numeric c (List.mem_reverse.mp ((List.dropWhile_suffix _).subset (List.mem_reverse.mp member)))

theorem IsNumeric.layout (point : Int) : IsNumeric (layout digits point) := by
  have front (count : Nat) : IsNumeric (digits.take count) :=
    fun c member => numeric c (List.mem_of_mem_take member)
  have back (count : Nat) : IsNumeric (digits.drop count) :=
    fun c member => numeric c (List.mem_of_mem_drop member)
  dsimp only [Json.layout]
  split_ifs
  all_goals
    simp only [isNumeric_append, isNumeric_cons, numeric, front, back, isNumeric_zeros,
      isNumeric_decimalChars]
    decide

end

theorem layout_ne_nil (digits : List Char) (point : Int) : layout digits point ≠ [] := by
  dsimp only [layout]
  split_ifs <;> simp

theorem isNumeric_numberChars (number : Number) : IsNumeric (numberChars number) := by
  cases number with
  | integer value =>
    refine isNumeric_append.mpr ⟨?_, isNumeric_decimalChars _⟩
    split_ifs <;> decide
  | double value =>
    have body := (isNumeric_decimalChars (Decimal.shortest value).digits).trimZeros.layout
    dsimp only [numberChars, doubleChars]
    split_ifs
    · decide
    · exact isNumeric_cons.mpr ⟨by decide, body _⟩
    · decide
    · exact body _

theorem numberChars_ne_nil (number : Number) : numberChars number ≠ [] := by
  cases number with
  | integer value => simp [numberChars, intChars, decimalChars]
  | double value =>
    dsimp only [numberChars, doubleChars]
    split_ifs <;> simp [layout_ne_nil]

theorem decimalChars_injective {m n : Nat} (same : decimalChars m = decimalChars n) : m = n := by
  have read := congrArg (Nat.ofDigitChars 10 · 0) same
  rwa [decimalChars, decimalChars, Nat.ofDigitChars_ten_toDigits, Nat.ofDigitChars_ten_toDigits]
    at read

/-- Different numbers among the given ones have different texts. -/
def NumbersTold (N : Number → Prop) : Prop :=
  ∀ ⦃m n⦄, N m → N n → numberChars m = numberChars n → m = n

variable {N : Number → Prop}

theorem numbersTold_integer : NumbersTold fun number => ∃ n : Nat, number = .integer n := by
  rintro _ _ ⟨m, rfl⟩ ⟨n, rfl⟩ same
  have plain (k : Nat) : numberChars (.integer k) = decimalChars k := by
    rw [numberChars, intChars, if_neg (by omega)]
    rfl
  rw [plain, plain] at same
  rw [decimalChars_injective same]

/-- The scalars that are written as words. -/
def Literal (N : Number → Prop) : Json → Prop
  | .null => True
  | .bool _ => True
  | .number value => N value
  | _ => False

def Scalar (N : Number → Prop) : Json → Prop
  | .string _ => True
  | value => Literal N value

theorem Literal.isWord {value : Json} (literal : Literal N value) : IsWord value.compactChars := by
  cases value with
  | null => decide
  | bool value => cases value <;> decide
  | number number =>
    exact fun c member => isWordPart_of_isNumberChar (isNumeric_numberChars number c member)
  | _ => cases literal

theorem Literal.ne_nil {value : Json} (literal : Literal N value) : value.compactChars ≠ [] := by
  cases value with
  | null => decide
  | bool value => cases value <;> decide
  | number number => exact numberChars_ne_nil number
  | _ => cases literal

theorem numberChars_ne {number : Number} {word : List Char} (other : ¬ IsNumeric word) :
    numberChars number ≠ word := by
  rintro rfl
  exact other (isNumeric_numberChars number)

theorem Literal.eq_of_compactChars (told : NumbersTold N) {value other : Json}
    (literal : Literal N value) (literal' : Literal N other)
    (same : value.compactChars = other.compactChars) : value = other := by
  cases value with
  | null =>
    cases other with
    | null => rfl
    | bool other => cases other <;> exact absurd same (by decide)
    | number number => exact absurd same.symm (numberChars_ne (by decide))
    | _ => cases literal'
  | bool value =>
    cases other with
    | null => cases value <;> exact absurd same (by decide)
    | bool other => cases value <;> cases other <;> first | rfl | exact absurd same (by decide)
    | number number => cases value <;> exact absurd same.symm (numberChars_ne (by decide))
    | _ => cases literal'
  | number number =>
    cases other with
    | null => exact absurd same (numberChars_ne (by decide))
    | bool other => cases other <;> exact absurd same (numberChars_ne (by decide))
    | number other => rw [told literal literal' same]
    | _ => cases literal'
  | _ => cases literal

theorem Literal.unlike_quoted {value : Json} (literal : Literal N value) (text : String)
    (rest rest' : List Char) : value.compactChars ++ rest ≠ quoted text ++ rest' := by
  intro same
  cases begins : value.compactChars with
  | nil => exact literal.ne_nil begins
  | cons c word =>
    rw [begins] at same
    have quote := (List.cons.inj same).1
    have word := literal.isWord c (begins ▸ List.mem_cons_self ..)
    rw [quote] at word
    exact absurd word (by decide)

theorem Scalar.string_or_literal {value : Json} (scalar : Scalar N value) :
    (∃ text, value = .string text) ∨ Literal N value := by
  cases value with
  | string text => exact .inl ⟨text, rfl⟩
  | _ => exact .inr scalar

theorem Scalar.begun {value : Json} (scalar : Scalar N value) : Begun value.compactChars := by
  rcases scalar.string_or_literal with ⟨text, rfl⟩ | literal
  · exact ⟨'"', _, rfl, .inr rfl⟩
  · obtain ⟨c, word, begins⟩ := List.exists_cons_of_ne_nil literal.ne_nil
    exact ⟨c, word, begins, .inl (literal.isWord c (begins ▸ List.mem_cons_self ..))⟩

theorem Scalar.tells (told : NumbersTold N) {value : Json} (scalar : Scalar N value) :
    Tells compactChars (Scalar N) value := by
  intro other rest rest' scalar' after after' same
  rcases scalar.string_or_literal with ⟨text, rfl⟩ | literal <;>
    rcases scalar'.string_or_literal with ⟨text', rfl⟩ | literal'
  · obtain ⟨rfl, continued⟩ := quoted_tells same
    exact ⟨rfl, continued⟩
  · exact absurd same.symm (literal'.unlike_quoted _ _ _)
  · exact absurd same (literal.unlike_quoted _ _ _)
  · obtain ⟨word, continued⟩ := word_tells literal.isWord literal'.isWord after after' same
    exact ⟨literal.eq_of_compactChars told literal' word, continued⟩

end GridQuery.Json
