import GridQuery.Form.Initial
import GridQuery.Proofs.Form.Dates
import GridQuery.Proofs.Form.State

/-!
Leaves that hold dates. Of a leaf's value only the date part matters, which is the operand where the
value is a pair. Normalizing rewrites that part, and of a pair it leaves nothing else but the
operator.
-/

namespace GridQuery

open Calendar (Instant)

/-- The path is one of a leaf that collects dates. -/
def FilterSchema.IsDatePath (schema : FilterSchema) (path : String) : Prop :=
  ∃ filter ∈ schema.filters, ∃ leaf ∈ filter.expression.leaves,
    leaf.control.isDate = true ∧ path ∈ leaf.target.paths

theorem FilterSchema.mem_datePaths {schema : FilterSchema} {path : String} :
    path ∈ schema.datePaths ↔ schema.IsDatePath path := by
  simp only [datePaths, IsDatePath, List.mem_flatMap, List.mem_filter, and_assoc]

namespace FilterLeaf

/-- The leaf's value is an object under an operator choice, of which only the operand can be a
date. -/
inductive Pairs (leaf : FilterLeaf) : Json → Prop
  | pair {operators : List Choice} {operand : Control} {initial : Option Json}
      (choice : leaf.control = .operatorChoice operators operand initial)
      (members : List (String × Json)) : Pairs leaf (.object members)

/-- The part of a leaf's value that is a date if the leaf holds dates. -/
def datePart (leaf : FilterLeaf) (value : Json) : Json :=
  match leaf.control, value with
  | .operatorChoice .., .object members => Json.getOrNull "value" (.object members)
  | _, value => value

/-- What becomes of a value when its date part becomes `date`. A pair is made anew: it has its own
operator, null if it had none, and the date as its operand, and all other members are dropped. -/
def withDatePart (leaf : FilterLeaf) (value date : Json) : Json :=
  match leaf.control, value with
  | .operatorChoice .., .object members =>
    operatorPair (Json.getOrNull "operator" (.object members)) date
  | _, _ => date

/-- If the leaf has a date path, its value is blank, a date at an instant of the given kind or an
array of such values. -/
def HoldsDates (paths : List String) (within : Instant → Prop) (leaf : FilterLeaf) (value : Json) :
    Prop :=
  (∃ path ∈ leaf.target.paths, path ∈ paths) → (leaf.datePart value).DatesWithin within

variable {leaf : FilterLeaf} {value date kept : Json} {paths : List String} {mode : DateMode}
  {field : String} {result : FormState} {within : Instant → Prop}

theorem datePart_of_pairs (pairs : leaf.Pairs value) :
    leaf.datePart value = value.getOrNull "value" := by
  obtain ⟨choice, members⟩ := pairs
  simp only [datePart, choice]

theorem datePart_of_not_pairs (single : ¬ leaf.Pairs value) : leaf.datePart value = value := by
  unfold datePart
  split
  next choice => exact absurd (.pair choice _) single
  next => rfl

theorem withDatePart_of_pairs (pairs : leaf.Pairs value) :
    leaf.withDatePart value date = operatorPair (value.getOrNull "operator") date := by
  obtain ⟨choice, members⟩ := pairs
  simp only [withDatePart, choice]

theorem withDatePart_of_not_pairs (single : ¬ leaf.Pairs value) :
    leaf.withDatePart value date = date := by
  unfold withDatePart
  split
  next choice => exact absurd (.pair choice _) single
  next => rfl

/-- Normalizing does not make a pair of another value. -/
theorem Pairs.of_normalized (pairs : leaf.Pairs kept)
    (normal : value.normalizeDates mode field = .ok kept) : leaf.Pairs value := by
  obtain ⟨choice, members⟩ := pairs
  rw [Json.normalizeDates_eq_object normal]
  exact .pair choice members

theorem datePart_withDatePart
    (normal : (leaf.datePart value).normalizeDates mode field = .ok date) :
    leaf.datePart (leaf.withDatePart value date) = date := by
  by_cases pairs : leaf.Pairs value
  · rw [withDatePart_of_pairs pairs]
    obtain ⟨choice, members⟩ := pairs
    exact datePart_of_pairs (.pair choice _)
  · rw [datePart_of_not_pairs pairs] at normal
    rw [withDatePart_of_not_pairs pairs]
    exact datePart_of_not_pairs fun pairs' => pairs (pairs'.of_normalized normal)

theorem withDatePart_withDatePart
    (normal : (leaf.datePart value).normalizeDates mode field = .ok date) :
    leaf.withDatePart (leaf.withDatePart value date) date = leaf.withDatePart value date := by
  by_cases pairs : leaf.Pairs value
  · rw [withDatePart_of_pairs pairs]
    obtain ⟨choice, members⟩ := pairs
    exact withDatePart_of_pairs (.pair choice _)
  · rw [datePart_of_not_pairs pairs] at normal
    rw [withDatePart_of_not_pairs pairs]
    exact withDatePart_of_not_pairs fun pairs' => pairs (pairs'.of_normalized normal)

theorem operatorPair_canonical {operator operand : Json} (operatorOrdered : operator.Canonical)
    (operandOrdered : operand.Canonical) : (operatorPair operator operand).Canonical :=
  ⟨List.pairwise_pair.mpr (show "operator" < "value" by decide), operatorOrdered, operandOrdered,
    trivial⟩

theorem withDatePart_canonical (canonical : value.Canonical) (ordered : date.Canonical) :
    (leaf.withDatePart value date).Canonical := by
  by_cases pairs : leaf.Pairs value
  · rw [withDatePart_of_pairs pairs]
    exact operatorPair_canonical (canonical.getOrNull "operator") ordered
  · rw [withDatePart_of_not_pairs pairs]
    exact ordered

theorem datePart_canonical (canonical : value.Canonical) : (leaf.datePart value).Canonical := by
  by_cases pairs : leaf.Pairs value
  · rw [datePart_of_pairs pairs]
    exact canonical.getOrNull "value"
  · rw [datePart_of_not_pairs pairs]
    exact canonical

/-- The path by which a leaf holds dates is one of its own. -/
theorem mem_of_dated (found : leaf.target.paths.find? paths.contains = some field) :
    field ∈ leaf.target.paths ∧ field ∈ paths :=
  ⟨List.mem_of_find?_eq_some found, List.contains_iff_mem.mp (List.find?_some found)⟩

theorem not_mem_of_dateless (dateless : leaf.target.paths.find? paths.contains = none) :
    ∀ path ∈ leaf.target.paths, path ∉ paths :=
  fun path offered isDate =>
    List.find?_eq_none.mp dateless path offered (List.contains_iff_mem.mpr isDate)

theorem normalizeLeaf_of_dateless (dateless : leaf.target.paths.find? paths.contains = none) :
    normalizeLeaf mode paths leaf value = .ok (.leaf value) := by
  rw [normalizeLeaf, dateless]

/-- A leaf with a date path gets its date part normalized. -/
theorem normalizeLeaf_of_dated (found : leaf.target.paths.find? paths.contains = some field) :
    normalizeLeaf mode paths leaf value = do
      return .leaf (leaf.withDatePart value
        (← (leaf.datePart value).normalizeDates mode field)) := by
  rw [normalizeLeaf, found]
  by_cases pairs : leaf.Pairs value
  · rw [datePart_of_pairs pairs]
    simp only [withDatePart_of_pairs pairs]
    obtain ⟨choice, members⟩ := pairs
    simp only [choice]
    rfl
  · rw [datePart_of_not_pairs pairs]
    simp only [withDatePart_of_not_pairs pairs]
    split
    next choice => exact absurd (.pair choice _) pairs
    next => rfl

theorem normalizeLeaf_eq_ok (found : leaf.target.paths.find? paths.contains = some field) :
    normalizeLeaf mode paths leaf value = .ok result ↔
      ∃ date, (leaf.datePart value).normalizeDates mode field = .ok date ∧
        .leaf (leaf.withDatePart value date) = result := by
  rw [normalizeLeaf_of_dated found, bind_eq_ok]
  simp only [pure, Except.pure, Except.ok.injEq]

theorem normalizeLeaf_eq_leaf (normal : normalizeLeaf mode paths leaf value = .ok result) :
    ∃ kept, result = .leaf kept := by
  cases found : leaf.target.paths.find? paths.contains with
  | none =>
    cases (normalizeLeaf_of_dateless found).symm.trans normal
    exact ⟨value, rfl⟩
  | some field =>
    obtain ⟨date, _, rfl⟩ := (normalizeLeaf_eq_ok found).mp normal
    exact ⟨leaf.withDatePart value date, rfl⟩

/-- A leaf fails by its date part, under a date path of its own. -/
theorem normalizeLeaf_eq_error {error : ViewError}
    (failed : normalizeLeaf mode paths leaf value = .error error) :
    ∃ field ∈ leaf.target.paths, field ∈ paths ∧
      (leaf.datePart value).normalizeDates mode field = .error error := by
  cases found : leaf.target.paths.find? paths.contains with
  | none => cases (normalizeLeaf_of_dateless found).symm.trans failed
  | some field =>
    rw [normalizeLeaf_of_dated found] at failed
    obtain ⟨offered, isDate⟩ := mem_of_dated found
    rcases bind_eq_error.mp failed with failed | ⟨_, _, failed⟩
    · exact ⟨field, offered, isDate, failed⟩
    · cases failed

theorem holdsDates_of_dateless (dateless : leaf.target.paths.find? paths.contains = none) :
    leaf.HoldsDates paths within value := by
  rintro ⟨path, offered, isDate⟩
  exact absurd isDate (not_mem_of_dateless dateless path offered)

theorem HoldsDates.of_find? (dates : leaf.HoldsDates paths within value)
    (found : leaf.target.paths.find? paths.contains = some field) :
    (leaf.datePart value).DatesWithin within :=
  dates ⟨field, mem_of_dated found⟩

theorem HoldsDates.normalizes (dates : leaf.HoldsDates paths within value) (mode : DateMode) :
    ∃ kept, normalizeLeaf mode paths leaf value = .ok (.leaf kept) := by
  cases found : leaf.target.paths.find? paths.contains with
  | none => exact ⟨_, normalizeLeaf_of_dateless found⟩
  | some field =>
    obtain ⟨date, dated⟩ := (dates.of_find? found).normalizes mode field
    exact ⟨_, (normalizeLeaf_eq_ok found).mpr ⟨date, dated, rfl⟩⟩

/-- A leaf is loaded exactly if it holds dates. -/
theorem exists_loaded_iff :
    (∃ kept, normalizeLeaf .strict paths leaf value = .ok (.leaf kept)) ↔
      leaf.HoldsDates paths (fun _ => True) value := by
  refine ⟨?_, fun dates => dates.normalizes .strict⟩
  rintro ⟨kept, loaded⟩
  cases found : leaf.target.paths.find? paths.contains with
  | none => exact holdsDates_of_dateless found
  | some field =>
    obtain ⟨date, dated, _⟩ := (normalizeLeaf_eq_ok found).mp loaded
    exact fun _ => Json.normalizes_strict_iff.mp ⟨date, dated⟩

/-- What a leaf with dates from year 0 on is saved as is loaded as it is. -/
theorem HoldsDates.reloads (dates : leaf.HoldsDates paths Instant.FromYearZero value)
    (normal : normalizeLeaf mode paths leaf value = .ok (.leaf kept)) :
    normalizeLeaf .strict paths leaf kept = .ok (.leaf kept) := by
  cases found : leaf.target.paths.find? paths.contains with
  | none => exact normalizeLeaf_of_dateless found
  | some field =>
    obtain ⟨date, dated, same⟩ := (normalizeLeaf_eq_ok found).mp normal
    cases same
    have settled := (dates.of_find? found).settles dated .strict field
    refine (normalizeLeaf_eq_ok found).mpr ⟨date, ?_, ?_⟩
    · rwa [datePart_withDatePart dated]
    · rw [withDatePart_withDatePart dated]

theorem operatorPair_written (operator operand : Json) :
    (operatorPair operator operand).canonical =
      operatorPair operator.canonical operand.canonical := by
  have ascending : Named.Ascending
      [("operator", operator.canonical), ("value", operand.canonical)] :=
    List.pairwise_pair.mpr (show "operator" < "value" by decide)
  exact congrArg Json.object ascending.ofList_eq

theorem datePart_written (normal : (leaf.datePart value).normalizeDates mode field = .ok date) :
    leaf.datePart (leaf.withDatePart value date).canonical = date.canonical := by
  by_cases pairs : leaf.Pairs value
  · rw [withDatePart_of_pairs pairs, operatorPair_written]
    obtain ⟨choice, members⟩ := pairs
    exact datePart_of_pairs (.pair choice _)
  · rw [datePart_of_not_pairs pairs] at normal
    rw [withDatePart_of_not_pairs pairs]
    refine datePart_of_not_pairs fun pairs' => pairs ?_
    cases date with
    | object members =>
      obtain ⟨choice, _⟩ := pairs'
      exact (Pairs.pair choice members).of_normalized normal
    | _ => cases pairs'

/-- What a leaf is saved as can be loaded exactly if its dates are from year 0 on. -/
theorem reloads_iff (mode : DateMode) :
    (∃ kept, normalizeLeaf mode paths leaf value = .ok (.leaf kept) ∧
      ∃ again, normalizeLeaf .strict paths leaf kept.canonical = .ok (.leaf again)) ↔
    leaf.HoldsDates paths Instant.FromYearZero value := by
  cases found : leaf.target.paths.find? paths.contains with
  | none =>
    refine iff_of_true ⟨value, normalizeLeaf_of_dateless found, value.canonical, ?_⟩ ?_
    · exact normalizeLeaf_of_dateless found
    · exact holdsDates_of_dateless found
  | some field =>
    constructor
    · rintro ⟨kept, normal, again, loaded⟩ -
      obtain ⟨date, dated, same⟩ := (normalizeLeaf_eq_ok found).mp normal
      cases same
      obtain ⟨redate, redated, _⟩ := (normalizeLeaf_eq_ok found).mp loaded
      rw [datePart_written dated] at redated
      exact (Json.reloads_iff mode field).mp ⟨date, dated, redate, redated⟩
    · intro dates
      obtain ⟨date, dated, redate, redated⟩ :=
        (Json.reloads_iff mode field).mpr (dates.of_find? found)
      rw [← datePart_written dated] at redated
      exact ⟨_, (normalizeLeaf_eq_ok found).mpr ⟨date, dated, rfl⟩, _,
        (normalizeLeaf_eq_ok found).mpr ⟨redate, redated, rfl⟩⟩

theorem normalizeLeaf_canonical (canonical : value.Canonical)
    (normal : normalizeLeaf mode paths leaf value = .ok result) : result.Canonical := by
  cases found : leaf.target.paths.find? paths.contains with
  | none =>
    rw [normalizeLeaf_of_dateless found] at normal
    cases normal
    exact canonical
  | some field =>
    obtain ⟨date, dated, rfl⟩ := (normalizeLeaf_eq_ok found).mp normal
    exact withDatePart_canonical canonical
      (Json.normalizeDates_canonical (datePart_canonical canonical) dated)

end FilterLeaf

end GridQuery
