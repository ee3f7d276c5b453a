import GridQuery.Proofs.Form.DateLeaf
import GridQuery.Proofs.Form.Leafwise

/-!
Saving form states and loading them again. Where every date falls into the years from 0 on, what is
saved is loaded, and is the written form of what is loaded. An earlier date is saved as a text that
loading refuses.
-/

namespace GridQuery

open Calendar (Instant)

namespace FormState

variable {state kept : FormState} {expression : FilterExpr}
  {children results agains : List FormState} {filters : List FilterExpr} {mode : DateMode}
  {paths : List String}

/-- What a state is saved as can be loaded exactly if it is in shape and its dates are from year 0
on. -/
theorem reloads_iff (mode : DateMode) :
    (∃ kept, state.fold (dateVisitor mode paths) expression = .ok kept ∧
      ∃ again, kept.canonical.fold (dateVisitor .strict paths) expression = .ok again) ↔
    state.Fits expression ∧
      state.EachLeaf (FilterLeaf.HoldsDates paths Instant.FromYearZero) expression := by
  have leaves (contents : FilterLeaf) (value : Json) :
      (∃ again kept, NormalizesTo mode paths contents value kept ∧
        NormalizesTo .strict paths contents kept.canonical again) ↔
      contents.HoldsDates paths Instant.FromYearZero value := by
    refine Iff.trans ?_ (FilterLeaf.reloads_iff mode)
    constructor
    · rintro ⟨again, kept, normal, loaded⟩
      exact ⟨kept, normal, again, loaded⟩
    · rintro ⟨kept, normal, again, loaded⟩
      exact ⟨again, kept, normal, loaded⟩
  calc
    _ ↔ ∃ kept, state.Follows (NormalizesTo mode paths) expression kept ∧
        ∃ again, kept.Follows (fun contents value again =>
          NormalizesTo .strict paths contents value.canonical again) expression again := by
      simp only [fold_dateVisitor_eq_ok, canonical_follows_iff]
    _ ↔ ∃ again, state.Follows (fun contents value again =>
        ∃ kept, NormalizesTo mode paths contents value kept ∧
          NormalizesTo .strict paths contents kept.canonical again) expression again := by
      constructor
      · rintro ⟨kept, before, again, after⟩
        exact ⟨again, before.trans again after⟩
      · rintro ⟨again, follows⟩
        obtain ⟨kept, before, after⟩ := follows.exists_middle
        exact ⟨kept, before, again, after⟩
    _ ↔ _ := by
      rw [exists_follows_iff]
      simp only [leaves]

/-- If what the state is saved as can be loaded, it is loaded as it was saved. -/
def Reloads (paths : List String) (state : FormState) (expression : FilterExpr)
    (kept : FormState) : Prop :=
  state.Canonical → ∀ again,
    kept.canonical.Follows (NormalizesTo .strict paths) expression again → again = kept

theorem folded_reloads (folded : FoldedChildren (Reloads paths) children filters results)
    (ordered : AllCanonical children)
    (loaded : FoldedChildren (Follows (NormalizesTo .strict paths))
      (canonicalList results) filters agains) : agains = results := by
  induction folded generalizing agains with
  | nil filters =>
    cases loaded
    rfl
  | cons first later ih =>
    cases loaded with
    | cons here beyond => rw [first ordered.1 _ here, ih ordered.2 beyond]

theorem Follows.reloads (follows : state.Follows (NormalizesTo mode paths) expression kept) :
    state.Reloads paths expression kept := by
  refine follows.induct ?leaf ?and ?or ?not
  case leaf =>
    intro contents value kept normal ordered again loaded
    cases loaded with
    | leaf loaded =>
      have written : kept.canonical = kept :=
        Json.Canonical.canonical_eq (FilterLeaf.normalizeLeaf_canonical ordered normal)
      have dates := (FilterLeaf.reloads_iff mode).mp ⟨kept, normal, _, loaded⟩
      rw [written] at loaded
      exact Except.ok.inj (loaded.symm.trans (dates.reloads normal))
  case and =>
    intro children filters results folded ordered again loaded
    cases loaded with
    | and loaded => rw [folded_reloads folded ordered loaded]
  case or =>
    intro children filters results folded ordered again loaded
    cases loaded with
    | or loaded => rw [folded_reloads folded ordered loaded]
  case not =>
    intro child filter inner reloads ordered again loaded
    cases loaded with
    | not loaded => rw [reloads ordered _ loaded]

end FormState

namespace FormStates

variable {mode : DateMode} {schema : FilterSchema} {states kept again : FormStates}
  {within : Instant → Prop}

/-- The leaves of all states whose filters are known hold dates at instants of the given kind. -/
def HoldDates (schema : FilterSchema) (within : Instant → Prop) (states : FormStates) : Prop :=
  EachKnown schema (FormState.EachLeaf (FilterLeaf.HoldsDates schema.datePaths within)) states

theorem normalize_completes (shaped : WellShaped schema states)
    (dates : states.HoldDates schema within) (mode : DateMode) :
    ∃ kept, normalize mode schema states = .ok kept := by
  have leaves : EachKnown schema (FormState.EachLeaf fun contents value =>
      ∃ kept, FormState.NormalizesTo mode schema.datePaths contents value kept) states :=
    fun id state filter member known =>
      (dates id state filter member known).imp fun _ _ dates => dates.normalizes mode
  obtain ⟨kept, follows⟩ := exists_follows_iff.mpr ⟨shaped, leaves⟩
  exact ⟨kept, normalize_eq_ok.mpr follows⟩

/-- What states are saved as can be loaded exactly if they are in shape and their dates are from
year 0 on. -/
theorem reloads_iff (mode : DateMode) :
    (∃ kept, normalize mode schema states = .ok kept ∧
      ∃ again, normalize .strict schema kept.canonical = .ok again) ↔
    WellShaped schema states ∧ states.HoldDates schema Instant.FromYearZero := by
  induction states with
  | nil => exact ⟨fun _ => ⟨nofun, nofun⟩, fun _ => ⟨[], rfl, [], rfl⟩⟩
  | cons entry rest ih =>
    obtain ⟨id, state⟩ := entry
    rw [HoldDates, wellShaped_cons, eachKnown_cons]
    cases known : schema.filter? id with
    | none =>
      constructor
      · rintro ⟨_, normal, again, loaded⟩
        obtain ⟨others, later, rfl⟩ := (normalize_unknown_eq_ok known).mp normal
        obtain ⟨agains, later', _⟩ := (normalize_unknown_eq_ok known).mp loaded
        obtain ⟨shaped, late⟩ := ih.mp ⟨others, later, agains, later'⟩
        exact ⟨⟨nofun, shaped⟩, nofun, late⟩
      · rintro ⟨⟨_, shaped⟩, _, late⟩
        obtain ⟨others, later, agains, later'⟩ := ih.mpr ⟨shaped, late⟩
        exact ⟨_, (normalize_unknown_eq_ok known).mpr ⟨others, later, rfl⟩, _,
          (normalize_unknown_eq_ok known).mpr ⟨agains, later', rfl⟩⟩
    | some filter =>
      simp only [Option.some.injEq, forall_eq']
      constructor
      · rintro ⟨_, normal, again, loaded⟩
        obtain ⟨first, here, others, later, rfl⟩ := (normalize_known_eq_ok known).mp normal
        obtain ⟨_, here', agains, later', _⟩ := (normalize_known_eq_ok known).mp loaded
        obtain ⟨fits, dates⟩ := (FormState.reloads_iff mode).mp ⟨first, here, _, here'⟩
        obtain ⟨shaped, late⟩ := ih.mp ⟨others, later, agains, later'⟩
        exact ⟨⟨fits, shaped⟩, dates, late⟩
      · rintro ⟨⟨fits, shaped⟩, dates, late⟩
        obtain ⟨first, here, again, here'⟩ := (FormState.reloads_iff mode).mpr ⟨fits, dates⟩
        obtain ⟨others, later, agains, later'⟩ := ih.mpr ⟨shaped, late⟩
        exact ⟨_, (normalize_known_eq_ok known).mpr ⟨first, here, others, later, rfl⟩, _,
          (normalize_known_eq_ok known).mpr ⟨again, here', agains, later', rfl⟩⟩

theorem reloaded_eq (ordered : states.Canonical)
    (normal : normalize mode schema states = .ok kept)
    (loaded : normalize .strict schema kept.canonical = .ok again) : again = kept := by
  induction states generalizing kept again with
  | nil =>
    cases normal
    cases loaded
    rfl
  | cons entry rest ih =>
    obtain ⟨id, state⟩ := entry
    obtain ⟨first, later⟩ := List.forall_mem_cons.mp ordered
    cases known : schema.filter? id with
    | none =>
      obtain ⟨others, normals, rfl⟩ := (normalize_unknown_eq_ok known).mp normal
      obtain ⟨agains, loadeds, rfl⟩ := (normalize_unknown_eq_ok known).mp loaded
      rw [first.canonical_eq, ih later normals loadeds]
    | some filter =>
      obtain ⟨kept, here, others, normals, rfl⟩ := (normalize_known_eq_ok known).mp normal
      obtain ⟨again, here', agains, loadeds, rfl⟩ := (normalize_known_eq_ok known).mp loaded
      have follows := FormState.fold_dateVisitor_eq_ok.mp here
      rw [follows.reloads first again (FormState.fold_dateVisitor_eq_ok.mp here'),
        ih later normals loadeds]

theorem save_eq_ok {saved : Json} : states.save schema = .ok saved ↔
    ∃ kept, normalize .lenient schema states = .ok kept ∧ kept.toJson = saved := by
  rw [save, bind_eq_ok]
  simp only [pure, Except.pure, Except.ok.injEq]

/-- Loading what is written of states normalizes the states in canonical form. -/
theorem load_toJson : load schema states.toJson = normalize .strict schema states.canonical := by
  rw [load, ofJson_toJson]
  rfl

/-- States in shape whose leaves hold dates are saved. What is saved can be loaded exactly if all
dates are from year 0 on, and then it is the written form of what is loaded. -/
theorem saved_reloads (shaped : WellShaped schema states) (canonical : states.Canonical)
    (dates : states.HoldDates schema fun _ => True) :
    ∃ saved, states.save schema = .ok saved ∧
      ((∃ reloaded, load schema saved = .ok reloaded) ↔
        states.HoldDates schema Instant.FromYearZero) ∧
      ∀ reloaded, load schema saved = .ok reloaded → reloaded.toJson = saved := by
  obtain ⟨kept, normal⟩ := normalize_completes shaped dates .lenient
  refine ⟨kept.toJson, save_eq_ok.mpr ⟨kept, normal, rfl⟩, ⟨?_, ?_⟩, ?_⟩
  · rintro ⟨reloaded, loaded⟩
    exact ((reloads_iff .lenient).mp ⟨kept, normal, reloaded, load_toJson.symm.trans loaded⟩).2
  · intro late
    obtain ⟨kept', normal', reloaded, loaded⟩ := (reloads_iff .lenient).mpr ⟨shaped, late⟩
    cases normal.symm.trans normal'
    exact ⟨reloaded, load_toJson.trans loaded⟩
  · intro reloaded loaded
    rw [load_toJson] at loaded
    rw [reloaded_eq canonical normal loaded]

/-- Two filters by date: one with a choice of operators, one for the days from a date on except for
given ones. -/
def appointmentSchema : FilterSchema :=
  ⟨[], [
    ⟨"due", "Due", .leaf (.plain .equals (.one "due_at")
      (.operatorChoice [⟨"before", .string "_lt"⟩] (.date none) none)), none, false⟩,
    ⟨"window", "Window", .and [.leaf (.plain .greaterThanOrEqual (.one "starts_at") (.date none)),
      .not (.leaf (.plain .isIn (.one "starts_at") (.date none)))], none, false⟩]⟩

def appointments : FormStates :=
  [("due", .leaf (operatorPair (.string "_lt") (.int 1700000000000))),
    ("window", .and [.leaf (.string "2024-06-01"),
      .not (.leaf (.array [.string "2024-06-01T09:00:00+02:00", .string ""]))])]

theorem appointments_reload :
    WellShaped appointmentSchema appointments ∧ appointments.Canonical ∧
      appointments.HoldDates appointmentSchema (fun _ => True) ∧
      ∃ saved, appointments.save appointmentSchema = .ok saved ∧
        ((∃ reloaded, load appointmentSchema saved = .ok reloaded) ↔
          appointments.HoldDates appointmentSchema Instant.FromYearZero) ∧
        ∀ reloaded, load appointmentSchema saved = .ok reloaded → reloaded.toJson = saved := by
  have shaped : WellShaped appointmentSchema appointments := by
    refine wellShaped_cons.mpr ⟨?_, wellShaped_cons.mpr ⟨?_, nofun⟩⟩
    · rintro _ ⟨⟩
      rfl
    · rintro _ ⟨⟩
      rfl
  have canonical : appointments.Canonical := by
    refine List.forall_mem_cons.mpr ⟨?_, List.forall_mem_cons.mpr ⟨?_, nofun⟩⟩
    · exact FilterLeaf.operatorPair_canonical trivial trivial
    · exact ⟨trivial, ⟨trivial, trivial, trivial⟩, trivial⟩
  have dates : appointments.HoldDates appointmentSchema fun _ => True := by
    refine eachKnown_cons.mpr ⟨?_, eachKnown_cons.mpr ⟨?_, nofun⟩⟩
    · rintro _ ⟨⟩ -
      exact .date rfl trivial
    · rintro _ ⟨⟩
      refine ⟨fun _ => .date rfl trivial, fun _ => .array ?_, trivial⟩
      rintro item (_ | ⟨_, _ | ⟨_, _ | _⟩⟩)
      · exact .date rfl trivial
      · exact .blank rfl
  exact ⟨shaped, canonical, dates, saved_reloads shaped canonical dates⟩

def daySchema : FilterSchema :=
  ⟨[], [⟨"day", "Day", .leaf (.plain .equals (.one "day") (.date none)), none, false⟩]⟩

/-- A date-time of year 0 that falls before it in UTC. -/
def newYear : FormStates :=
  [("day", .leaf (.string "0000-01-01T00:00:00+01:00"))]

def newYearSaved : FormStates :=
  [("day", .leaf (.string "-0001-12-31T23:00:00.000Z"))]

/-- An instant before year 0 is saved as a text that is refused on loading. -/
theorem newYear_refused :
    WellShaped daySchema newYear ∧ newYear.Canonical ∧
      newYear.HoldDates daySchema (fun _ => True) ∧
      newYear.save daySchema = .ok newYearSaved.toJson ∧
      load daySchema newYearSaved.toJson =
        .error (.invalidDate "day" (.string "-0001-12-31T23:00:00.000Z")) := by
  refine ⟨wellShaped_cons.mpr ⟨?_, nofun⟩, ?_, eachKnown_cons.mpr ⟨?_, nofun⟩, rfl, rfl⟩
  · rintro _ ⟨⟩
    rfl
  · exact List.forall_mem_singleton.mpr trivial
  · rintro _ ⟨⟩ -
    exact .date rfl trivial

end FormStates

end GridQuery
