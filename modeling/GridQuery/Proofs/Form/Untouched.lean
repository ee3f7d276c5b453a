import GridQuery.Proofs.Form.DateLeaf
import GridQuery.Proofs.Form.DateParts
import GridQuery.Proofs.Form.Leafwise
import GridQuery.View

/-!
Untouched forms. A form starts with one state for each id, that of the last filter with the id,
while everything that reads the state goes by the first one. So an untouched form compiles exactly
if wherever an id repeats the last expression lies within the first.
-/

namespace GridQuery

namespace FilterLeaf

/-- If the leaf has a date path, no part of its date part is after the calendar. -/
def InCalendar (schema : FilterSchema) (leaf : FilterLeaf) (value : Json) : Prop :=
  ∀ path ∈ leaf.target.paths, schema.IsDatePath path → (leaf.datePart value).InCalendar

variable {schema : FilterSchema} {leaf : FilterLeaf} {value : Json}

/-- A leaf is saved exactly if it is in the calendar. -/
theorem exists_saved_iff :
    (∃ kept, FormState.NormalizesTo .lenient schema.datePaths leaf value kept) ↔
      leaf.InCalendar schema value := by
  unfold FormState.NormalizesTo
  cases found : leaf.target.paths.find? schema.datePaths.contains with
  | none =>
    refine iff_of_true ⟨value, normalizeLeaf_of_dateless found⟩ fun path offered isDate => ?_
    exact absurd (FilterSchema.mem_datePaths.mpr isDate)
      (not_mem_of_dateless found path offered)
  | some field =>
    obtain ⟨offered, listed⟩ := mem_of_dated found
    have isDate := FilterSchema.mem_datePaths.mp listed
    constructor
    · rintro ⟨kept, normal⟩ path - -
      obtain ⟨date, dated, _⟩ := (normalizeLeaf_eq_ok found).mp normal
      exact Json.normalizes_lenient_iff.mp ⟨date, dated⟩
    · intro within
      have saved : ∃ date, (leaf.datePart value).normalizeDates .lenient field = .ok date :=
        Json.normalizes_lenient_iff.mpr (within field offered isDate)
      obtain ⟨date, dated⟩ := saved
      exact ⟨_, (normalizeLeaf_eq_ok found).mpr ⟨date, dated, rfl⟩⟩

end FilterLeaf

namespace FilterSchema

/-- The last filter with the id. -/
def latest? (schema : FilterSchema) (id : String) : Option Filter :=
  (schema.filters.filter fun filter => filter.id = id).getLast?

/-- Wherever an id repeats, the last expression lies within the first. -/
def RepeatsFit (schema : FilterSchema) : Prop :=
  ∀ id first last, schema.filter? id = some first → schema.latest? id = some last →
    last.expression.Within first.expression

variable {schema : FilterSchema}

theorem last_eq_first (distinct : (schema.filters.map Filter.id).Nodup) {id : String}
    {first last : Filter} (found : schema.filter? id = some first)
    (latest : schema.latest? id = some last) : last = first := by
  obtain ⟨member, named⟩ := List.mem_filter.mp (List.mem_of_getLast? latest)
  have itself := FormStates.filter?_of_nodup distinct member
  rw [of_decide_eq_true named] at itself
  exact Option.some.inj (itself.symm.trans found)

theorem repeatsFit_of_nodup (distinct : (schema.filters.map Filter.id).Nodup) :
    schema.RepeatsFit := by
  intro id first last found latest
  rw [last_eq_first distinct found latest]
  exact first.expression.within_self

end FilterSchema

namespace FormStates

variable {schema : FilterSchema} {states : FormStates} {mode : InitialMode} {id : String}
  {state : FormState}

theorem find?_start : Named.find? id (start mode schema) =
    (schema.latest? id).map fun filter => .start mode filter.expression := by
  rw [start, Named.find?_ofList, FilterSchema.latest?, List.filter_map, List.getLast?_map,
    Option.map_map]
  rfl

/-- Each id has the state that its last filter starts with. -/
theorem mem_start : (id, state) ∈ start mode schema ↔
    ∃ filter, schema.latest? id = some filter ∧ .start mode filter.expression = state := by
  have found : (id, state) ∈ start mode schema ↔
      Named.find? id (start mode schema) = some state :=
    ⟨(Named.ascending_ofList _).find?_of_mem, Named.mem_of_find?_eq_some⟩
  rw [found, find?_start, Option.map_eq_some_iff]

theorem start_wellShaped_iff : WellShaped schema (start mode schema) ↔ schema.RepeatsFit := by
  constructor
  · intro shaped id first last found latest
    exact (FormState.start_fits_iff mode _ _).mp
      (shaped id _ first (mem_start.mpr ⟨last, latest, rfl⟩) found)
  · intro fit id state first member found
    obtain ⟨last, latest, rfl⟩ := mem_start.mp member
    exact (FormState.start_fits_iff mode _ _).mpr (fit id first last found latest)

theorem activeConditions_ok_iff :
    (∃ conditions, states.activeConditions schema = .ok conditions) ↔ WellShaped schema states := by
  refine ⟨?_, WellShaped.activeConditions_ok⟩
  rintro ⟨conditions, compiled⟩
  induction states generalizing conditions with
  | nil => exact nofun
  | cons entry rest ih =>
    obtain ⟨id, state⟩ := entry
    rw [wellShaped_cons]
    cases known : schema.filter? id with
    | none =>
      rw [activeConditions_unknown known] at compiled
      exact ⟨nofun, ih conditions compiled⟩
    | some filter =>
      rw [activeConditions_known known] at compiled
      obtain ⟨first, here, compiled⟩ := bind_eq_ok.mp compiled
      obtain ⟨others, later, _⟩ := bind_eq_ok.mp compiled
      refine ⟨?_, ih others later⟩
      rintro _ ⟨⟩
      exact FormState.fits_of_folded here

theorem condition_ok_iff :
    (∃ condition, states.condition schema = .ok condition) ↔ WellShaped schema states := by
  refine ⟨?_, WellShaped.condition_ok⟩
  rintro ⟨condition, compiled⟩
  obtain ⟨conditions, active, _⟩ := bind_eq_ok.mp compiled
  exact activeConditions_ok_iff.mp ⟨conditions, active⟩

/-- No leaf of a state whose filter is known is after the calendar. -/
def InCalendar (schema : FilterSchema) (states : FormStates) : Prop :=
  EachKnown schema (FormState.EachLeaf (FilterLeaf.InCalendar schema)) states

theorem save_ok_iff : (∃ saved, states.save schema = .ok saved) ↔
    WellShaped schema states ∧ states.InCalendar schema := by
  have normalized : (∃ saved, states.save schema = .ok saved) ↔
      ∃ kept, normalize .lenient schema states = .ok kept := by
    constructor
    · rintro ⟨saved, succeeded⟩
      obtain ⟨kept, normal, _⟩ := bind_eq_ok.mp succeeded
      exact ⟨kept, normal⟩
    · rintro ⟨kept, normal⟩
      exact ⟨kept.toJson, bind_eq_ok.mpr ⟨kept, normal, rfl⟩⟩
  rw [normalized, InCalendar]
  simp only [normalize_eq_ok, exists_follows_iff, FilterLeaf.exists_saved_iff]

/-- An untouched form is in shape, and it compiles, exactly if the filters with one id agree. It can
be saved exactly if moreover none of its declared values is after the calendar. -/
theorem untouched_compiles_iff (mode : InitialMode) (schema : FilterSchema) :
    (WellShaped schema (start mode schema) ↔ schema.RepeatsFit) ∧
      ((∃ condition, (start mode schema).condition schema = .ok condition) ↔ schema.RepeatsFit) ∧
      ((∃ saved, (start mode schema).save schema = .ok saved) ↔
        schema.RepeatsFit ∧ (start mode schema).InCalendar schema) := by
  refine ⟨start_wellShaped_iff, ?_, ?_⟩
  · rw [condition_ok_iff, start_wellShaped_iff]
  · rw [save_ok_iff, start_wellShaped_iff]

/-- A view with two filters of one id. -/
def repeatedDocument : Json :=
  .object [("boolExpType", .string "events_bool_exp"), ("collectionName", .string "events"),
    ("columnDefinitions", .array []),
    ("filterSchema", .single "filters" (.array [
      .object [("expression", .object [("field", .string "name"), ("type", .string "equals"),
          ("value", .single "type" (.string "text"))]),
        ("id", .string "name"), ("label", .string "Name")],
      .object [("expression", .object [("filters", .array [.object [("field", .string "name"),
            ("type", .string "like"), ("value", .single "type" (.string "text"))]]),
          ("type", .string "and")]),
        ("id", .string "name"), ("label", .string "Names")]])),
    ("orderByType", .string "[events_order_by!]"), ("paginationKey", .string "id")]

def repeatedSchema : FilterSchema :=
  ⟨[], [⟨"name", "Name", .leaf (.plain .equals (.one "name") (.text none none)), none, false⟩,
    ⟨"name", "Names", .and [.leaf (.plain .like (.one "name") (.text none none))], none, false⟩]⟩

/-- The untouched form of a valid view does not compile if its filters with one id differ in kind:
the state is that of the last one, read by the first one. -/
theorem repeatedId_refused :
    (∃ view, View.ofJson repeatedDocument = .ok view ∧ view.schema = repeatedSchema) ∧
      ¬ WellShaped repeatedSchema (start .declared repeatedSchema) ∧
      (start .declared repeatedSchema).condition repeatedSchema =
        .error (.schemaMismatch .and .leaf) ∧
      (start .declared repeatedSchema).save repeatedSchema =
        .error (.schemaMismatch .and .leaf) := by
  have refused : (start .declared repeatedSchema).condition repeatedSchema =
      .error (.schemaMismatch .and .leaf) := rfl
  refine ⟨⟨_, rfl, rfl⟩, fun shaped => ?_, refused, rfl⟩
  obtain ⟨condition, compiled⟩ := shaped.condition_ok
  cases refused.symm.trans compiled

end FormStates

end GridQuery
