import GridQuery.Proofs.Form.DateLeaf
import GridQuery.Proofs.Form.DateParts
import GridQuery.Proofs.Form.Leafwise

/-!
What saving and loading rewrite. A leaf holds dates if one of its paths is a path of some leaf that
collects dates, whatever its own control; all other leaves stay as they are, and none of them can be
why a form is refused for a date. Operator pairs with a date path lose all other members.
-/

namespace GridQuery

namespace FilterLeaf

/-- A leaf without date paths keeps its value, and that of another leaf is redated as a whole. Of a
pair only the operand is redated, which together with the operator is all that is left of it: either
is null if the pair had none, and every other member is dropped. -/
structure Redates (schema : FilterSchema) (leaf : FilterLeaf) (value kept : Json) : Prop where
  dateless : (∀ path ∈ leaf.target.paths, ¬ schema.IsDatePath path) → kept = value
  whole : ∀ path ∈ leaf.target.paths, schema.IsDatePath path → ¬ leaf.Pairs value →
    value.Redated kept
  pair : ∀ path ∈ leaf.target.paths, schema.IsDatePath path → leaf.Pairs value →
    ∃ operand, (value.getOrNull "value").Redated operand ∧
      kept = .object [("operator", value.getOrNull "operator"), ("value", operand)]

variable {schema : FilterSchema} {leaf : FilterLeaf} {value kept part : Json} {mode : DateMode}
  {field : String}

theorem Redates.dated (redates : leaf.Redates schema value kept)
    (offered : field ∈ leaf.target.paths) (isDate : schema.IsDatePath field) :
    ∃ date, (leaf.datePart value).Redated date ∧ kept = leaf.withDatePart value date := by
  by_cases pairs : leaf.Pairs value
  · obtain ⟨operand, redated, same⟩ := redates.pair field offered isDate pairs
    rw [datePart_of_pairs pairs]
    exact ⟨operand, redated, same.trans (withDatePart_of_pairs pairs).symm⟩
  · rw [datePart_of_not_pairs pairs]
    exact ⟨kept, redates.whole field offered isDate pairs, (withDatePart_of_not_pairs pairs).symm⟩

theorem redates_of_normalizes
    (normal : FormState.NormalizesTo mode schema.datePaths leaf value kept) :
    leaf.Redates schema value kept := by
  cases found : leaf.target.paths.find? schema.datePaths.contains with
  | none =>
    cases (normalizeLeaf_of_dateless found).symm.trans normal
    have missed (path : String) (offered : path ∈ leaf.target.paths) : ¬ schema.IsDatePath path :=
      fun isDate => not_mem_of_dateless found path offered (FilterSchema.mem_datePaths.mpr isDate)
    exact ⟨fun _ => rfl, fun path offered isDate => absurd isDate (missed path offered),
      fun path offered isDate => absurd isDate (missed path offered)⟩
  | some field =>
    obtain ⟨date, dated, same⟩ := (normalizeLeaf_eq_ok found).mp normal
    cases same
    have redated := Json.redated_of_normalizes dated
    obtain ⟨offered, listed⟩ := mem_of_dated found
    refine ⟨fun dateless => ?_, fun _ _ _ single => ?_, fun _ _ _ pairs => ?_⟩
    · exact absurd (FilterSchema.mem_datePaths.mp listed) (dateless field offered)
    · rw [datePart_of_not_pairs single] at redated
      rwa [withDatePart_of_not_pairs single]
    · rw [datePart_of_pairs pairs] at redated
      exact ⟨date, redated, withDatePart_of_pairs pairs⟩

/-- The leaf is refused for a part of its date part that is no date, and its path is a date path. -/
structure RefusedFor (schema : FilterSchema) (leaf : FilterLeaf) (value : Json) (field : String)
    (part : Json) : Prop where
  offered : field ∈ leaf.target.paths
  isDate : schema.IsDatePath field
  undated : part.Undated
  inside : Json.HasPart part (leaf.datePart value)

theorem refusedFor_of_invalid
    (failed : normalizeLeaf mode schema.datePaths leaf value = .error (.invalidDate field part)) :
    leaf.RefusedFor schema value field part := by
  obtain ⟨path, offered, listed, failed⟩ := normalizeLeaf_eq_error failed
  obtain ⟨rfl, undated, inside⟩ := Json.undated_of_invalid failed
  exact ⟨offered, FilterSchema.mem_datePaths.mp listed, undated, inside⟩

end FilterLeaf

namespace FormStates

variable {schema : FilterSchema} {states kept : FormStates} {mode : DateMode} {error : ViewError}

/-- The states are refused because of a leaf of a state whose filter is known. -/
def RefusedFor (schema : FilterSchema) (states : FormStates) (field : String) (part : Json) :
    Prop :=
  ∃ id state filter, (id, state) ∈ states ∧ schema.filter? id = some filter ∧
    ∃ pair ∈ state.pairedLeaves filter.expression, pair.1.RefusedFor schema pair.2 field part

theorem refusedFor_of_invalid {field : String} {part : Json}
    (failed : normalize mode schema states = .error (.invalidDate field part)) :
    states.RefusedFor schema field part := by
  obtain ⟨id, state, filter, member, known, failed⟩ := normalize_eq_error failed
  have parents := dateVisitor_parentsComplete mode schema.datePaths
  rcases FormState.fold_error parents state filter.expression failed with ⟨shape, _⟩ | raised
  · cases shape
  · obtain ⟨pair, inside, raised⟩ := raised
    exact ⟨id, state, filter, member, known, pair, inside,
      FilterLeaf.refusedFor_of_invalid raised⟩

theorem redates_of_normalizes (normal : normalize mode schema states = .ok kept) :
    states.Follows schema (FilterLeaf.Redates schema) kept :=
  (normalize_eq_ok.mp normal).imp fun _ _ _ => FilterLeaf.redates_of_normalizes

/-- Saving and loading change only leaves with a date path, whatever their controls. In these they
rewrite the dates, and what a pair holds beside its operator and its operand is lost. Loading
refuses dates only in such leaves. -/
theorem save_load_redate (schema : FilterSchema) :
    (∀ states saved, save schema states = .ok saved →
      ∃ kept, kept.toJson = saved ∧ states.Follows schema (FilterLeaf.Redates schema) kept) ∧
    (∀ document loaded, load schema document = .ok loaded →
      ∃ states, ofJson document = .ok states ∧
        states.Follows schema (FilterLeaf.Redates schema) loaded) ∧
    ∀ document field part, load schema document = .error (.invalidDate field part) →
      ∃ states, ofJson document = .ok states ∧ states.RefusedFor schema field part := by
  refine ⟨?_, ?_, ?_⟩
  · intro states saved succeeded
    obtain ⟨kept, normal, written⟩ := bind_eq_ok.mp succeeded
    exact ⟨kept, Except.ok.inj written, redates_of_normalizes normal⟩
  · intro document loaded succeeded
    obtain ⟨states, read, normal⟩ := bind_eq_ok.mp succeeded
    exact ⟨states, mapError_eq_ok.mp read, redates_of_normalizes normal⟩
  · intro document field part failed
    rcases bind_eq_error.mp failed with unread | ⟨states, read, failed⟩
    · cases read : ofJson document with
      | ok states =>
        rw [read] at unread
        cases unread
      | error fault =>
        rw [read] at unread
        cases unread
    · exact ⟨states, mapError_eq_ok.mp read, refusedFor_of_invalid failed⟩

/-- A text control. -/
def noteLeaf : FilterLeaf :=
  .plain .equals (.one "at") (.text none none)

/-- A choice of operators for a text. -/
def tagLeaf : FilterLeaf :=
  .plain .equals (.one "at") (.operatorChoice [⟨"is", .string "_eq"⟩] (.text none none) none)

/-- Dates and texts on one column, both of them also with a choice of operators, and a text control
on another. -/
def sharedSchema : FilterSchema :=
  ⟨[], [
    ⟨"before", "Before", .leaf (.plain .lessThan (.one "at")
      (.operatorChoice [⟨"before", .string "_lt"⟩] (.date none) none)), none, false⟩,
    ⟨"due", "Due", .leaf (.plain .lessThan (.one "at") (.date none)), none, false⟩,
    ⟨"note", "Note", .leaf noteLeaf, none, false⟩,
    ⟨"tag", "Tag", .leaf tagLeaf, none, false⟩,
    ⟨"title", "Title", .leaf (.plain .equals (.one "title") (.text none none)), none, false⟩]⟩

/-- One pair with a member too many, and one without members. -/
def notes : FormStates :=
  [("before", .leaf (.object [("note", .string "x"), ("operator", .string "_lt"),
      ("value", .string "2024-06-01")])),
    ("note", .leaf (.string "2024-06-01")), ("tag", .leaf (.object [])),
    ("title", .leaf (.string "2024-06-01"))]

def notesSaved : FormStates :=
  [("before", .leaf (operatorPair (.string "_lt") (.string "2024-06-01T00:00:00.000Z"))),
    ("note", .leaf (.string "2024-06-01T00:00:00.000Z")), ("tag", .leaf (operatorPair .null .null)),
    ("title", .leaf (.string "2024-06-01"))]

def undatedNote : FormStates :=
  [("note", .leaf (.string "soon"))]

theorem notes_redate :
    (save sharedSchema notes = .ok notesSaved.toJson ∧
      ∃ kept, kept.toJson = notesSaved.toJson ∧
        notes.Follows sharedSchema (FilterLeaf.Redates sharedSchema) kept) ∧
    (load sharedSchema notes.toJson = .ok notesSaved ∧
      ∃ states, ofJson notes.toJson = .ok states ∧
        states.Follows sharedSchema (FilterLeaf.Redates sharedSchema) notesSaved) ∧
    load sharedSchema undatedNote.toJson = .error (.invalidDate "at" (.string "soon")) ∧
      ∃ states, ofJson undatedNote.toJson = .ok states ∧
        states.RefusedFor sharedSchema "at" (.string "soon") := by
  obtain ⟨saves, loads, refuses⟩ := save_load_redate sharedSchema
  exact ⟨⟨rfl, saves notes notesSaved.toJson rfl⟩, ⟨rfl, loads notes.toJson notesSaved rfl⟩, rfl,
    refuses undatedNote.toJson "at" (.string "soon") rfl⟩

/-- Leaves that collect no date are rewritten and refused all the same, and a pair among them loses
its members. -/
theorem sharedColumn_rewritten :
    noteLeaf.control.isDate = false ∧
      (sharedSchema.filter? "note").map Filter.expression = some (.leaf noteLeaf) ∧
      save sharedSchema [("note", .leaf (.string "2024-06-01"))] =
        .ok (toJson [("note", .leaf (.string "2024-06-01T00:00:00.000Z"))]) ∧
      load sharedSchema undatedNote.toJson = .error (.invalidDate "at" (.string "soon")) ∧
      tagLeaf.control.isDate = false ∧
      (sharedSchema.filter? "tag").map Filter.expression = some (.leaf tagLeaf) ∧
      save sharedSchema [("tag", .leaf (.single "note" (.string "x")))] =
        .ok (toJson [("tag", .leaf (operatorPair .null .null))]) :=
  ⟨rfl, rfl, rfl, rfl, rfl, rfl, rfl⟩

end FormStates

end GridQuery
