import GridQuery.Proofs.Form.Reload

/-!
Suggested values in saved states. A suggestion is accepted for its shape alone, so whether the
states can be loaded again after they are saved is up to the dates that were suggested.
-/

namespace GridQuery

open Calendar (Instant)

namespace FormStates

/-- The states can be saved, and what they are saved as can be loaded. -/
def Reopens (schema : FilterSchema) (states : FormStates) : Prop :=
  ∃ saved, states.save schema = .ok saved ∧ ∃ reloaded, load schema saved = .ok reloaded

/-- The states after suggestions, one after another. -/
def suggested (schema : FilterSchema) (suggestions : List Json) (states : FormStates) :
    FormStates :=
  suggestions.foldl (merge schema) states

/-- All that is accepted of the suggestions holds dates at instants of the given kind. -/
def SuggestsDates (schema : FilterSchema) (within : Instant → Prop) (suggestions : Json) : Prop :=
  AllAccepted schema (FormState.EachLeaf (FilterLeaf.HoldsDates schema.datePaths within))
    suggestions

variable {schema : FilterSchema} {states loaded : FormStates} {within : Instant → Prop}
  {suggestions : List Json}

theorem reopens_iff : states.Reopens schema ↔
    WellShaped schema states ∧ states.HoldDates schema Instant.FromYearZero := by
  rw [← reloads_iff .lenient, Reopens]
  constructor
  · rintro ⟨_, saves, reloaded, loads⟩
    obtain ⟨kept, normal, rfl⟩ := save_eq_ok.mp saves
    exact ⟨kept, normal, reloaded, load_toJson.symm.trans loads⟩
  · rintro ⟨kept, normal, reloaded, loads⟩
    exact ⟨kept.toJson, save_eq_ok.mpr ⟨kept, normal, rfl⟩, reloaded, load_toJson.trans loads⟩

theorem suggested_wellShaped (shaped : WellShaped schema states) (suggestions : List Json) :
    WellShaped schema (states.suggested schema suggestions) := by
  induction suggestions generalizing states with
  | nil => exact shaped
  | cons suggestion rest ih => exact ih (merge_wellShaped shaped suggestion)

theorem suggested_holdDates (dates : states.HoldDates schema within)
    (dated : ∀ suggestion ∈ suggestions, SuggestsDates schema within suggestion) :
    (states.suggested schema suggestions).HoldDates schema within := by
  induction suggestions generalizing states with
  | nil => exact dates
  | cons suggestion rest ih =>
    obtain ⟨first, later⟩ := List.forall_mem_cons.mp dated
    exact ih (merge_eachKnown dates first) later

/-- After suggestions, what the loaded states are saved as can be loaded if all leaves with a date
path hold dates from year 0 on then, whatever was suggested in between; so it is where the loaded
states and all that is accepted of the suggestions do. Where it can be loaded, these leaves hold
dates. -/
theorem suggested_reopens {document : Json} (read : load schema document = .ok loaded)
    (suggestions : List Json) :
    ((loaded.suggested schema suggestions).HoldDates schema Instant.FromYearZero →
      (loaded.suggested schema suggestions).Reopens schema) ∧
    (loaded.HoldDates schema Instant.FromYearZero →
      (∀ suggestion ∈ suggestions, SuggestsDates schema Instant.FromYearZero suggestion) →
        (loaded.suggested schema suggestions).Reopens schema) ∧
    ((loaded.suggested schema suggestions).Reopens schema →
      (loaded.suggested schema suggestions).HoldDates schema fun _ => True) := by
  have shaped := suggested_wellShaped (load_wellShaped read) suggestions
  have reopens (dates : (loaded.suggested schema suggestions).HoldDates schema
      Instant.FromYearZero) : (loaded.suggested schema suggestions).Reopens schema :=
    reopens_iff.mpr ⟨shaped, dates⟩
  refine ⟨reopens, fun dates dated => reopens (suggested_holdDates dates dated), ?_⟩
  intro opened id state filter member known
  exact ((reopens_iff.mp opened).2 id state filter member known).imp
    fun _ _ dates offered => (dates offered).imp fun _ _ => trivial

def bookedDay : FormStates :=
  [("day", .leaf (.string "2024-05-31T00:00:00.000Z"))]

/-- A day that is no date at first. -/
def revisedSuggestions : List Json :=
  [.single "day" (FormState.leaf (.string "tomorrow")).toJson,
    .single "day" (FormState.leaf (.string "2024-06-01")).toJson]

/-- A day that is left open at first. -/
def daySuggestions : List Json :=
  [.single "day" (FormState.leaf (.string "")).toJson,
    .single "day" (FormState.leaf (.int 1700000000000)).toJson]

theorem daySuggestions_reopen :
    load daySchema bookedDay.toJson = .ok bookedDay ∧
      (suggested daySchema revisedSuggestions bookedDay =
          [("day", .leaf (.string "2024-06-01"))] ∧
        (suggested daySchema revisedSuggestions bookedDay).HoldDates daySchema
          Instant.FromYearZero ∧
        (suggested daySchema revisedSuggestions bookedDay).Reopens daySchema) ∧
      suggested daySchema daySuggestions bookedDay = [("day", .leaf (.int 1700000000000))] ∧
      bookedDay.HoldDates daySchema Instant.FromYearZero ∧
      (∀ suggestion ∈ daySuggestions,
        SuggestsDates daySchema Instant.FromYearZero suggestion) ∧
      (suggested daySchema daySuggestions bookedDay).Reopens daySchema ∧
      (suggested daySchema daySuggestions bookedDay).HoldDates daySchema fun _ => True := by
  have read : load daySchema bookedDay.toJson = .ok bookedDay := rfl
  have revised : (suggested daySchema revisedSuggestions bookedDay).HoldDates daySchema
      Instant.FromYearZero := by
    rintro _ _ _ (_ | ⟨_, ⟨⟩⟩) ⟨⟩ -
    exact .date rfl (by decide)
  have booked : bookedDay.HoldDates daySchema Instant.FromYearZero := by
    rintro _ _ _ (_ | ⟨_, ⟨⟩⟩) ⟨⟩ -
    exact .date rfl (by decide)
  have dated : ∀ suggestion ∈ daySuggestions,
      SuggestsDates daySchema Instant.FromYearZero suggestion := by
    refine List.forall_mem_cons.mpr ⟨?_, List.forall_mem_singleton.mpr ?_⟩
    · refine List.forall_mem_singleton.mpr ?_
      rintro _ _ ⟨⟩ ⟨⟩ - -
      exact .blank rfl
    · refine List.forall_mem_singleton.mpr ?_
      rintro _ _ ⟨⟩ ⟨⟩ - -
      exact .date rfl (by decide)
  obtain ⟨ofStates, _, _⟩ := suggested_reopens read revisedSuggestions
  obtain ⟨_, ofSuggestions, holds⟩ := suggested_reopens read daySuggestions
  have reopened := ofSuggestions booked dated
  exact ⟨read, ⟨rfl, revised, ofStates revised⟩, rfl, booked, dated, reopened, holds reopened⟩

/-- A suggested day that is no date is accepted and saved, and refused on loading. -/
theorem tomorrow_refused :
    load daySchema (.object []) = .ok [] ∧
      suggested daySchema [.single "day" (FormState.leaf (.string "tomorrow")).toJson] [] =
        [("day", .leaf (.string "tomorrow"))] ∧
      save daySchema [("day", .leaf (.string "tomorrow"))] =
        .ok (toJson [("day", .leaf (.string "tomorrow"))]) ∧
      load daySchema (toJson [("day", .leaf (.string "tomorrow"))]) =
        .error (.invalidDate "day" (.string "tomorrow")) :=
  ⟨rfl, rfl, rfl, rfl⟩

end FormStates

end GridQuery
