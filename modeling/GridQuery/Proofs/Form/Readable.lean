import GridQuery.Proofs.Form.ShapeFaults

/-!
Which documents can be loaded as form states, and what is reported of the others. The date that is
refused is the first in the order of the ids, of the trees and of the arrays.
-/

namespace GridQuery

open Calendar (Instant)

namespace Json

/-- From left to right, the first part of the value that is neither blank nor a date. -/
inductive FirstUnread (part : Json) : Json → Prop
  | whole (single : part.isArray = false) (filled : part.isBlank = false)
      (unread : ∀ instant, Instant.ofJson? part ≠ .ok (some instant)) : FirstUnread part part
  | item {before after : List Json} {item : Json}
      (readable : ∀ other ∈ before, other.DatesWithin fun _ => True)
      (inner : FirstUnread part item) : FirstUnread part (.array (before ++ item :: after))

variable {value part : Json} {field : String} {error : ViewError}

theorem FirstUnread.single (first : FirstUnread part value) : part.isArray = false := by
  induction first with
  | whole single => exact single
  | item _ _ ih => exact ih

theorem firstUnread_of_error (single : value.isArray = false)
    (failed : value.normalizeDates .strict field = .error error) : FirstUnread value value := by
  refine .whole single (Bool.eq_false_iff.mpr fun blank => ?_) fun instant read => ?_
  · rw [normalizeDates_of_isBlank blank] at failed
    cases failed
  · rw [normalizeDates_of_date read] at failed
    cases failed

/-- Loading a value fails by the first part that is neither blank nor a date. -/
theorem normalizeDates_strict_eq_error_iff :
    value.normalizeDates .strict field = .error error ↔
      ∃ part, FirstUnread part value ∧ part.normalizeDates .strict field = .error error := by
  induction value using array_induction with
  | single value single =>
    constructor
    · intro failed
      exact ⟨value, firstUnread_of_error single failed, failed⟩
    · intro ⟨part, first, failed⟩
      cases first with
      | whole => exact failed
      | item => cases single
  | array items ih =>
    rw [normalizeDates_array_eq_error, mapM_eq_error_iff]
    constructor
    · intro ⟨before, item, after, split, passed, failed⟩
      have inside : item ∈ items := by
        rw [split]
        exact List.mem_append_cons_self
      obtain ⟨part, first, refused⟩ := (ih item inside).mp failed
      rw [split]
      exact ⟨part, .item (fun other member => normalizes_strict_iff.mp (passed other member)) first,
        refused⟩
    · intro ⟨part, first, failed⟩
      cases first with
      | whole single => cases single
      | @item before after item readable inner =>
        refine ⟨before, item, after, rfl, ?_, ?_⟩
        · exact fun other member => (readable other member).normalizes .strict field
        · exact (ih item List.mem_append_cons_self).mpr ⟨part, inner, failed⟩

/-- The part is refused as no date, unless it is a date-time after the calendar. -/
theorem FirstUnread.invalidDate_iff {path : String} {other : Json}
    (first : FirstUnread part value) :
    part.normalizeDates .strict field = .error (.invalidDate path other) ↔
      path = field ∧ other = part ∧ part.Undated := by
  rw [normalizeDates_single_eq_error first.single]
  constructor
  · intro failed
    rcases failed with beyond | ⟨unread, _, filled, same⟩
    · cases Calendar.Instant.ofJson?_error beyond
    · cases same
      exact ⟨rfl, rfl, first.single, filled, unread⟩
  · intro ⟨samePath, samePart, _, filled, unread⟩
    rw [samePath, samePart]
    exact .inr ⟨unread, rfl, filled, rfl⟩

end Json

namespace FilterLeaf

variable {schema : FilterSchema} {leaf : FilterLeaf} {value part : Json} {field path : String}
  {error : ViewError}

/-- The first of the leaf's paths that is a date path. -/
def FirstDatePath (schema : FilterSchema) (leaf : FilterLeaf) (field : String) : Prop :=
  schema.IsDatePath field ∧ ∃ before after, leaf.target.paths = before ++ field :: after ∧
    ∀ path ∈ before, ¬ schema.IsDatePath path

theorem firstDatePath_iff : leaf.FirstDatePath schema field ↔
    leaf.target.paths.find? schema.datePaths.contains = some field := by
  simp only [List.find?_eq_some_iff_append, Bool.not_eq_true', Bool.eq_false_iff, Ne,
    List.contains_iff_mem, FilterSchema.mem_datePaths, FirstDatePath]

/-- Loading a leaf fails exactly if it has a date path and loading its date part fails. -/
theorem normalizeLeaf_eq_error_iff {mode : DateMode} :
    normalizeLeaf mode schema.datePaths leaf value = .error error ↔
      ∃ field, leaf.FirstDatePath schema field ∧
        (leaf.datePart value).normalizeDates mode field = .error error := by
  simp only [firstDatePath_iff]
  cases found : leaf.target.paths.find? schema.datePaths.contains with
  | none =>
    rw [normalizeLeaf_of_dateless found]
    refine iff_of_false nofun ?_
    rintro ⟨_, listed, _⟩
    cases listed
  | some field =>
    rw [normalizeLeaf_of_dated found]
    refine (bind_error_iff_of_complete fun date => ⟨_, rfl⟩).trans ?_
    simp only [Option.some.injEq, exists_eq_left']

theorem normalizeLeaf_strict_eq_error_iff :
    normalizeLeaf .strict schema.datePaths leaf value = .error error ↔ ∃ field part,
      leaf.FirstDatePath schema field ∧ Json.FirstUnread part (leaf.datePart value) ∧
        part.normalizeDates .strict field = .error error := by
  rw [normalizeLeaf_eq_error_iff]
  constructor
  · intro ⟨field, first, failed⟩
    obtain ⟨part, unread, failed⟩ := Json.normalizeDates_strict_eq_error_iff.mp failed
    exact ⟨field, part, first, unread, failed⟩
  · intro ⟨field, part, first, unread, failed⟩
    exact ⟨field, first, Json.normalizeDates_strict_eq_error_iff.mpr ⟨part, unread, failed⟩⟩

end FilterLeaf

namespace Traverses

variable {α β : Type} {handle : FilterLeaf → Json → Except ViewError β}
  {met : List (FilterLeaf × Json)} {shape : Except ViewError Unit} {outcome : Except ViewError α}
  {error : ViewError}

/-- An error that is no fault in the shape is that of the first leaf that cannot be handled. -/
theorem leaf_error_iff (traverses : Traverses handle met shape outcome)
    (sound : shape ≠ .error error) : outcome = .error error ↔
      ∃ before pair after, met = before ++ pair :: after ∧
        (∀ other ∈ before, ∃ result, handle other.1 other.2 = .ok result) ∧
        handle pair.1 pair.2 = .error error := by
  rw [← verdict_eq_error, traverses, bind_eq_error, mapM_eq_error_iff]
  constructor
  · intro failed
    rcases failed with failed | ⟨_, _, misshapen⟩
    · exact failed
    · exact absurd misshapen sound
  · exact .inl

end Traverses

namespace FormState

mutual

theorem Fits.metLeaves_eq : ∀ {state : FormState} {expression : FilterExpr},
    state.Fits expression → state.metLeaves expression = state.pairedLeaves expression
  | .leaf value, expression, _ => by
    cases expression with
    | leaf | and | or | not => rfl
  | .and children, expression, fits => by
    cases expression with
    | and filters => exact metLeavesOfList_eq (fits_and_iff.mp fits)
    | leaf | or | not => rfl
  | .or children, expression, fits => by
    cases expression with
    | or filters => exact metLeavesOfList_eq (fits_or_iff.mp fits)
    | leaf | and | not => rfl
  | .not child, expression, fits => by
    cases expression with
    | not filter =>
      have inner : child.Fits filter := fits_not_iff.mp fits
      rw [metLeaves, pairedLeaves, inner.metLeaves_eq]
    | leaf | and | or => rfl
termination_by structural state => state

theorem metLeavesOfList_eq : ∀ {children : List FormState} {filters : List FilterExpr}
    {index : Nat}, AllFit index children filters →
      metLeavesOfList children filters = pairedLeavesOfList children filters
  | [], _, _, _ => rfl
  | _ :: _, [], _, _ => rfl
  | child :: rest, filter :: others, index, fit => by
    obtain ⟨here, later⟩ := allFit_cons.mp fit
    rw [metLeavesOfList, pairedLeavesOfList, here.metLeaves_eq, metLeavesOfList_eq later,
      show child.checkShape filter = .ok () from here]
    rfl

end

mutual

/-- What is met are the first of the leaves. -/
theorem metLeaves_isPrefix : ∀ (state : FormState) (expression : FilterExpr),
    state.metLeaves expression <+: state.pairedLeaves expression
  | .leaf value, expression => by
    cases expression with
    | leaf | and | or | not => exact List.prefix_rfl
  | .and children, expression => by
    cases expression with
    | and filters => exact metLeavesOfList_isPrefix children filters
    | leaf | or | not => exact List.prefix_rfl
  | .or children, expression => by
    cases expression with
    | or filters => exact metLeavesOfList_isPrefix children filters
    | leaf | and | not => exact List.prefix_rfl
  | .not child, expression => by
    cases expression with
    | not filter => exact metLeaves_isPrefix child filter
    | leaf | and | or => exact List.prefix_rfl
termination_by structural state => state

theorem metLeavesOfList_isPrefix : ∀ (children : List FormState) (filters : List FilterExpr),
    metLeavesOfList children filters <+: pairedLeavesOfList children filters
  | [], _ => List.prefix_rfl
  | _ :: _, [] => List.prefix_rfl
  | child :: rest, filter :: others => by
    rw [metLeavesOfList, pairedLeavesOfList]
    cases shape : child.checkShape filter with
    | ok _ =>
      rw [Fits.metLeaves_eq shape]
      exact (List.prefix_append_right_inj _).mpr (metLeavesOfList_isPrefix rest others)
    | error _ =>
      rw [metAfter, List.append_nil]
      exact (metLeaves_isPrefix child filter).trans (List.prefix_append _ _)

end

end FormState

namespace FormStates

variable {schema : FilterSchema} {states rest : FormStates} {id : String} {state : FormState}
  {field : String} {part : Json} {error : ViewError}

/-- The leaves of the states whose filters are known, with their values, in the order of the ids and
of the trees. -/
def knownLeaves (schema : FilterSchema) (states : FormStates) : List (FilterLeaf × Json) :=
  states.flatMap fun entry => ((schema.filter? entry.1).map fun filter =>
    entry.2.pairedLeaves filter.expression).getD []

/-- What is met before the first fault in a shape are the first of the leaves, and all of them if
there is none. -/
theorem metLeaves_isPrefix (schema : FilterSchema) (states : FormStates) :
    metLeaves schema states <+: knownLeaves schema states := by
  induction states with
  | nil => exact List.prefix_rfl
  | cons entry rest ih =>
    obtain ⟨id, state⟩ := entry
    rw [knownLeaves, List.flatMap_cons, ← knownLeaves]
    cases known : schema.filter? id with
    | none =>
      simp only [metLeaves, known, Option.map_none, Option.getD_none, List.nil_append]
      exact ih
    | some filter =>
      simp only [metLeaves, known, Option.map_some, Option.getD_some]
      cases shape : state.checkShape filter.expression with
      | ok _ =>
        rw [FormState.Fits.metLeaves_eq shape]
        exact (List.prefix_append_right_inj _).mpr ih
      | error _ =>
        rw [metAfter, List.append_nil]
        exact (state.metLeaves_isPrefix filter.expression).trans (List.prefix_append _ _)

theorem isShapeFault_of_checkShapes (failed : checkShapes schema states = .error error) :
    error.IsShapeFault := by
  induction states with
  | nil => cases failed
  | cons entry rest ih =>
    obtain ⟨id, state⟩ := entry
    rw [checkShapes] at failed
    split at failed
    next =>
      rcases bind_eq_error.mp failed with here | ⟨_, _, later⟩
      · exact FormState.isShapeFault_of_checkShape here
      · exact ih later
    next => exact ih failed

/-- Of the leaves that are met the first that holds no dates has this path as its first date path,
and the part is the first of its value that is none. -/
def FirstUnread (schema : FilterSchema) (states : FormStates) (field : String) (part : Json) :
    Prop :=
  ∃ before pair after, metLeaves schema states = before ++ pair :: after ∧
    (∀ other ∈ before, other.1.HoldsDates schema.datePaths (fun _ => True) other.2) ∧
    pair.1.FirstDatePath schema field ∧ Json.FirstUnread part (pair.1.datePart pair.2)

/-- Where the shape is no reason, loading fails by the first part that cannot be read. -/
theorem normalize_strict_eq_error_iff (other : ¬ error.IsShapeFault) :
    normalize .strict schema states = .error error ↔ ∃ field part,
      states.FirstUnread schema field part ∧ part.normalizeDates .strict field = .error error := by
  have sound : checkShapes schema states ≠ .error error :=
    fun failed => other (isShapeFault_of_checkShapes failed)
  rw [(normalize_traverses .strict schema states).leaf_error_iff sound]
  simp only [FilterLeaf.exists_normalized_iff, FilterLeaf.normalizeLeaf_strict_eq_error_iff]
  constructor
  · intro ⟨before, pair, after, split, passed, field, part, first, unread, failed⟩
    exact ⟨field, part, ⟨before, pair, after, split, passed, first, unread⟩, failed⟩
  · intro ⟨field, part, ⟨before, pair, after, split, passed, first, unread⟩, failed⟩
    exact ⟨before, pair, after, split, passed, field, part, first, unread, failed⟩

theorem FirstUnread.exists_value (first : states.FirstUnread schema field part) :
    ∃ value, Json.FirstUnread part value := by
  obtain ⟨_, pair, _, _, _, _, unread⟩ := first
  exact ⟨pair.1.datePart pair.2, unread⟩

theorem normalize_eq_invalidDate_iff :
    normalize .strict schema states = .error (.invalidDate field part) ↔
      states.FirstUnread schema field part ∧ part.Undated := by
  have other : ¬ (ViewError.invalidDate field part).IsShapeFault := nofun
  rw [normalize_strict_eq_error_iff other]
  constructor
  · intro ⟨path, other, first, failed⟩
    obtain ⟨value, unread⟩ := first.exists_value
    obtain ⟨rfl, rfl, undated⟩ := unread.invalidDate_iff.mp failed
    exact ⟨first, undated⟩
  · intro ⟨first, undated⟩
    obtain ⟨value, unread⟩ := first.exists_value
    exact ⟨field, part, first, unread.invalidDate_iff.mpr ⟨rfl, rfl, undated⟩⟩

variable {document : Json} {loaded : FormStates}

theorem load_eq_ok_iff : load schema document = .ok loaded ↔
    ∃ states, ofJson document = .ok states ∧ normalize .strict schema states = .ok loaded := by
  simp only [load, bind_eq_ok, mapError_eq_ok]

/-- Other errors than that the document is unreadable are those of normalizing what is read. -/
theorem load_eq_error_iff (other : ∀ fault, error ≠ .unreadable fault) :
    load schema document = .error error ↔
      ∃ states, ofJson document = .ok states ∧ normalize .strict schema states = .error error := by
  rw [load, bind_eq_error]
  simp only [mapError_eq_ok]
  refine or_iff_right fun failed => ?_
  cases read : ofJson document with
  | ok states =>
    rw [read] at failed
    cases failed
  | error fault =>
    rw [read] at failed
    exact other fault (Except.error.inj failed).symm

theorem names_of_read {members : List (String × Json)} (read : ofMembers members = .ok states) :
    Named.names states = Named.names members := by
  induction members generalizing states with
  | nil =>
    cases read
    rfl
  | cons member rest ih =>
    obtain ⟨id, value⟩ := member
    rw [ofMembers] at read
    obtain ⟨state, _, read⟩ := bind_eq_ok.mp read
    obtain ⟨others, later, read⟩ := bind_eq_ok.mp read
    cases read
    exact congrArg (id :: ·) (ih later)

/-- The states are in the order of the document's members. -/
theorem ascending_of_read (canonical : document.Canonical)
    (read : ofJson document = .ok states) : Named.Ascending states := by
  cases document with
  | object members =>
    have same : Named.names states = Named.names members := names_of_read read
    have ordered := canonical.1.names_pairwise
    rw [← same] at ordered
    exact List.pairwise_map.mp ordered
  | _ => cases read

/-- What can be loaded is what can be read, is in shape and holds dates in the leaves with date
paths. Only these dates are rewritten, and a date that is refused is the first that is none. -/
structure LoadsReadable (schema : FilterSchema) (document : Json) : Prop where
  accepted : (∃ loaded, load schema document = .ok loaded) ↔
    ∃ states, ofJson document = .ok states ∧ WellShaped schema states ∧
      states.HoldDates schema fun _ => True
  redated : ∀ loaded, load schema document = .ok loaded →
    ∃ states, ofJson document = .ok states ∧
      states.Follows schema (FilterLeaf.Redates schema) loaded
  refused : ∀ field part, load schema document = .error (.invalidDate field part) ↔
    ∃ states, ofJson document = .ok states ∧ states.FirstUnread schema field part ∧ part.Undated
  ordered : ∀ states, ofJson document = .ok states → document.Canonical →
    Named.Ascending states ∧ metLeaves schema states <+: knownLeaves schema states

theorem loads_readable (schema : FilterSchema) (document : Json) :
    LoadsReadable schema document where
  accepted := by
    simp only [load_eq_ok_iff]
    constructor
    · intro ⟨loaded, states, read, normal⟩
      obtain ⟨shaped, leaves⟩ := exists_follows_iff.mp ⟨loaded, normalize_eq_ok.mp normal⟩
      refine ⟨states, read, shaped, fun id state filter member known => ?_⟩
      exact (leaves id state filter member known).imp fun _ _ => FilterLeaf.exists_loaded_iff.mp
    · intro ⟨states, read, shaped, dates⟩
      obtain ⟨loaded, normal⟩ := normalize_completes shaped dates .strict
      exact ⟨loaded, states, read, normal⟩
  redated loaded succeeded := by
    obtain ⟨states, read, normal⟩ := load_eq_ok_iff.mp succeeded
    exact ⟨states, read, redates_of_normalizes normal⟩
  refused field part := by
    have readable : ∀ fault, ViewError.invalidDate field part ≠ .unreadable fault := nofun
    rw [load_eq_error_iff readable]
    simp only [normalize_eq_invalidDate_iff]
  ordered states read canonical :=
    ⟨ascending_of_read canonical read, metLeaves_isPrefix schema states⟩

/-- Two filters, one by the date of a column and one by the texts of two columns. -/
def deadlineSchema : FilterSchema :=
  ⟨[], [
    ⟨"due", "Due", .leaf (.plain .equals (.one "due_at")
      (.operatorChoice [⟨"before", .string "_lt"⟩] (.date none) none)), none, false⟩,
    ⟨"either", "Either", .leaf (.plain .isIn (.anyOf ["title", "due_at"]) (.text none none)), none,
      false⟩]⟩

/-- The states of the two filters, and of one that is not known. -/
def deadlines (due either : Json) : Json :=
  toJson [("due", .leaf due), ("either", .leaf either), ("old", .leaf (.string "soon"))]

/-- A missing operand is blank, and lists are read to any depth. The second path of the text is the
date path that is reported. -/
theorem deadlines_readable :
    load deadlineSchema (deadlines (.object [("operator", .string "_lt")])
        (.array [.array [.string "2024-06-01", .string ""], .array []])) =
      .ok [("due", .leaf (operatorPair (.string "_lt") .null)),
        ("either", .leaf (.array [.array [.string "2024-06-01T00:00:00.000Z", .string ""],
          .array []])),
        ("old", .leaf (.string "soon"))] ∧
    load deadlineSchema (deadlines .null (.array [.int 0, .array [.string "soon", .bool true]])) =
      .error (.invalidDate "due_at" (.string "soon")) ∧
    (∃ states, ofJson (deadlines .null (.array [.int 0, .array [.string "soon", .bool true]])) =
        .ok states ∧ states.FirstUnread deadlineSchema "due_at" (.string "soon") ∧
          (Json.string "soon").Undated) := by
  have refused : load deadlineSchema
      (deadlines .null (.array [.int 0, .array [.string "soon", .bool true]])) =
        .error (.invalidDate "due_at" (.string "soon")) := rfl
  exact ⟨rfl, refused, ((loads_readable deadlineSchema _).refused _ _).mp refused⟩

end FormStates

end GridQuery
