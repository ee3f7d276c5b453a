import GridQuery.Proofs.Condition.Truth
import GridQuery.Proofs.Paging.Tickets
import Mathlib.Data.List.Pairwise
import Mathlib.Data.List.Perm.Basic

/-!
Paging by key. A backend answers a request with the first of the rows that its conditions select, in
the order that it asks for. Fetching page after page, each from the cursor of the page before, ends,
and delivers every row exactly once in descending order of the pagination key.
-/

namespace GridQuery

/-- A store of rows: which rows a condition selects, the order of their values, and what it answers
to a request. -/
structure Backend where
  matching : Condition → List Json
  below : Json → Json → Prop
  respond : PreparedRequest → Json

def Direction.isDescending : Direction → Bool
  | .desc => true
  | .descNullsFirst => true
  | .descNullsLast => true
  | _ => false

namespace Backend

/-- Whether the first row's value at the path is below the second's. -/
def KeyBelow (backend : Backend) (path : String) (first second : Json) : Prop :=
  ∃ value other, first.atPath? path = some value ∧ second.atPath? path = some other ∧
    backend.below value other

/-- Which cursor comparisons hold of a row. -/
def holdsOf (backend : Backend) (row : Json) : Truth := fun path key operand =>
  key = .lt ∧ ∃ value, row.atSegments? path = some value ∧ backend.below value operand

/-- Whether the term puts the first row before the second. -/
def Precedes (backend : Backend) (term : OrderTerm) (first second : Json) : Prop :=
  if term.direction.isDescending then backend.KeyBelow term.field second first
  else backend.KeyBelow term.field first second

/-- The backend's answer holds, under the collection, the first rows of all those that match the
conditions and the cursor, in the order of the leading term. -/
def Serves (backend : Backend) (collection : String) (request : PreparedRequest) : Prop :=
  ∃ ordered : List Json, ordered.Nodup ∧
    (∀ row, row ∈ ordered ↔ row ∈ backend.matching request.queryVariables.conditions ∧
      request.queryVariables.paginationCondition.Holds (backend.holdsOf row) []) ∧
    (∀ term ∈ request.queryVariables.orderBy.head?,
      ordered.Pairwise fun first second => ¬ backend.Precedes term second first) ∧
    ((backend.respond request).get? "data").bind (Json.get? collection) =
      some (.array (ordered.take request.queryVariables.rowLimit))

/-- The rows have values at the path, none null and no two alike, and these are totally ordered. -/
structure Keyed (backend : Backend) (path : String) (table : List Json) : Prop where
  present : ∀ row ∈ table, ∃ value, row.atPath? path = some value ∧ value.isNull = false
  distinct : table.Pairwise fun first second =>
    backend.KeyBelow path first second ∨ backend.KeyBelow path second first
  irreflexive : ∀ row ∈ table, ¬ backend.KeyBelow path row row
  transitive : ∀ first ∈ table, ∀ second ∈ table, ∀ third ∈ table,
    backend.KeyBelow path first second → backend.KeyBelow path second third →
      backend.KeyBelow path first third

end Backend

/-- The backend serves every request that is prepared for the view from the states. -/
def Backend.ServesView (backend : Backend) (view : View) (states : FormStates) : Prop :=
  ∀ (planner next : Planner) (cursor : Option Json) (request : PreparedRequest),
    planner.view = view → planner.prepare states cursor = .ok (request, next) →
      backend.Serves view.collection request

/-- The pages that a planner fetches from a cursor on, each from the cursor of the page before, up
to the first page without one. -/
inductive Planner.Fetches (respond : PreparedRequest → Json) (states : FormStates) :
    Planner → Option Json → List Page → Prop
  | last {planner next : Planner} {cursor : Option Json} {request : PreparedRequest}
      (prepared : planner.prepare states cursor = .ok (request, next))
      (ends : (next.page (respond request)).nextCursor = none) :
      Fetches respond states planner cursor [next.page (respond request)]
  | more {planner next : Planner} {cursor : Option Json} {request : PreparedRequest}
      {value : Json} {pages : List Page}
      (prepared : planner.prepare states cursor = .ok (request, next))
      (continues : (next.page (respond request)).nextCursor = some value)
      (rest : Fetches respond states next (some value) pages) :
      Fetches respond states planner cursor (next.page (respond request) :: pages)

/-- There is only one way to fetch all pages. -/
theorem Planner.Fetches.unique {respond : PreparedRequest → Json} {states : FormStates}
    {planner : Planner} {cursor : Option Json} {pages others : List Page}
    (fetched : Fetches respond states planner cursor pages)
    (fetched' : Fetches respond states planner cursor others) : others = pages := by
  induction fetched generalizing others with
  | last prepared ends =>
    cases fetched' with
    | last prepared' ends' =>
      cases prepared.symm.trans prepared'
      rfl
    | more prepared' continues' rest' =>
      cases prepared.symm.trans prepared'
      cases ends.symm.trans continues'
  | more prepared continues rest ih =>
    cases fetched' with
    | last prepared' ends' =>
      cases prepared.symm.trans prepared'
      cases ends'.symm.trans continues
    | more prepared' continues' rest' =>
      cases prepared.symm.trans prepared'
      cases continues.symm.trans continues'
      rw [ih rest']

theorem Json.rows_of_nested {response : Json} {collection : String} {rows : List Json}
    (nested : (response.get? "data").bind (get? collection) = some (.array rows)) :
    response.rows collection = rows := by
  rw [Json.rows, nested]
  rfl

/-- A page that is not full is the last one. -/
theorem nextCursor?_of_short {rows : List Json} {key : String} {rowLimit : Nat}
    (short : rows.length < rowLimit) : nextCursor? rows key rowLimit = none :=
  if_pos short

/-- The cursor after a full page is the key of its last row. -/
theorem nextCursor?_of_full {rows : List Json} {key : String} {rowLimit : Nat} {row value : Json}
    (full : rowLimit ≤ rows.length) (last : rows.getLast? = some row)
    (found : row.atPath? key = some value) (present : value.isNull = false) :
    nextCursor? rows key rowLimit = some value := by
  rw [nextCursor?, if_neg (Nat.not_lt.mpr full), last, Option.bind_some, found]
  cases value with
  | null => cases present
  | _ => rfl

/-- The condition after a cursor selects the rows whose key lies below it, and all rows where there
is no cursor or a null one. -/
theorem Condition.holds_after {backend : Backend} {key : String} {row : Json}
    {cursor : Option Json} : (Condition.after key cursor).Holds (backend.holdsOf row) [] ↔
      ∀ bound ∈ cursor.filter (!·.isNull),
        ∃ value, row.atPath? key = some value ∧ backend.below value bound := by
  cases cursor with
  | none => exact iff_of_true trivial (by simp)
  | some bound =>
    cases null : bound.isNull with
    | true =>
      cases bound with
      | null => exact iff_of_true trivial (by simp [null])
      | _ => cases null
    | false =>
      have nested : Condition.after key (some bound) = .nest key (.comparison ⟨.lt, bound⟩) := by
        cases bound with
        | null => cases null
        | _ => rfl
      rw [nested, Condition.holds_nest, FieldCondition.Holds, Comparison.Holds, Backend.holdsOf,
        List.nil_append]
      simp [null, Json.atPath?]

/-- The key of the last row, from which the rest is fetched. -/
def lastKey? (path : String) (rows : List Json) : Option Json :=
  rows.getLast?.bind fun row => row.atPath? path

namespace Backend

variable {backend : Backend} {path : String} {table : List Json}

namespace Keyed

variable (keyed : backend.Keyed path table)
include keyed

theorem nodup : table.Nodup := by
  apply keyed.distinct.imp_of_mem
  rintro first second here _ compared rfl
  exact keyed.irreflexive first here (compared.elim id id)

theorem total {first second : Json} (here : first ∈ table) (there : second ∈ table)
    (different : first ≠ second) :
    backend.KeyBelow path first second ∨ backend.KeyBelow path second first := by
  have symmetric : Std.Symm fun first second : Json =>
      backend.KeyBelow path first second ∨ backend.KeyBelow path second first :=
    ⟨fun _ _ => Or.symm⟩
  exact keyed.distinct.forall here there different

theorem asymmetric {first second : Json} (here : first ∈ table) (there : second ∈ table)
    (below : backend.KeyBelow path first second) : ¬ backend.KeyBelow path second first :=
  fun above => keyed.irreflexive first here
    (keyed.transitive first here second there first here below above)

/-- Different rows that are never put the wrong way round are in descending order. -/
theorem descending_of_sorted {rows : List Json} (inside : ∀ row ∈ rows, row ∈ table)
    (nodup : rows.Nodup)
    (sorted : rows.Pairwise fun first second => ¬ backend.KeyBelow path first second) :
    rows.Pairwise fun first second => backend.KeyBelow path second first := by
  apply (sorted.and nodup).imp_of_mem
  rintro first second here there ⟨unsorted, different⟩
  exact (keyed.total (inside first here) (inside second there) different).resolve_left unsorted

theorem nodup_of_descending {rows : List Json} (inside : ∀ row ∈ rows, row ∈ table)
    (descending : rows.Pairwise fun first second => backend.KeyBelow path second first) :
    rows.Nodup := by
  apply descending.imp_of_mem
  rintro first second here _ below rfl
  exact keyed.irreflexive first (inside first here) below

/-- Rows can be put in descending order in one way only. -/
theorem eq_of_descending {rows others : List Json} (inside : ∀ row ∈ rows, row ∈ table)
    (descending : rows.Pairwise fun first second => backend.KeyBelow path second first)
    (descending' : others.Pairwise fun first second => backend.KeyBelow path second first)
    (same : ∀ row, row ∈ rows ↔ row ∈ others) : rows = others := by
  have inside' : ∀ row ∈ others, row ∈ table := fun row there => inside row ((same row).mpr there)
  have order : rows.Perm others := (List.perm_ext_iff_of_nodup
    (keyed.nodup_of_descending inside descending)
    (keyed.nodup_of_descending inside' descending')).mpr same
  apply order.eq_of_pairwise _ descending descending'
  intro first second here there above below
  exact (keyed.asymmetric (inside' second there) (inside first here) above below).elim

end Keyed

/-- Where the rows descend, those after the cursor are those that have not been fetched. -/
theorem Keyed.holds_after_iff (keyed : backend.Keyed path table) {fetched rest : List Json}
    (inside : ∀ row ∈ fetched ++ rest, row ∈ table)
    (descending : (fetched ++ rest).Pairwise fun first second =>
      backend.KeyBelow path second first) {row : Json} (member : row ∈ fetched ++ rest) :
    (Condition.after path (lastKey? path fetched)).Holds (backend.holdsOf row) [] ↔ row ∈ rest := by
  obtain ⟨within, _, across⟩ := List.pairwise_append.mp descending
  cases fetched using List.reverseRecOn with
  | nil => exact iff_of_true (Condition.holds_after.mpr (by simp [lastKey?])) member
  | append_singleton earlier last =>
    have lastInside : last ∈ table := inside last (by simp)
    obtain ⟨value, found, present⟩ := keyed.present last lastInside
    have key : lastKey? path (earlier ++ [last]) = some value := by
      rw [lastKey?, List.getLast?_concat, Option.bind_some, found]
    have holds : (Condition.after path (some value)).Holds (backend.holdsOf row) [] ↔
        backend.KeyBelow path row last := by
      rw [Condition.holds_after]
      simp [KeyBelow, found, present]
    rw [key, holds]
    constructor
    · intro below
      rcases List.mem_append.mp member with early | late
      · rcases List.mem_append.mp early with early | same
        · have above := (List.pairwise_append.mp within).2.2 row early last (by simp)
          exact (keyed.asymmetric (inside row member) lastInside below above).elim
        · rw [List.mem_singleton.mp same] at below
          exact (keyed.irreflexive last lastInside below).elim
      · exact late
    · exact fun late => across last (by simp) row late

/-- The cursor after a full page is the last key of all that has been fetched with it. -/
theorem Keyed.cursor_of_full (keyed : backend.Keyed path table) {page : List Json} {rowLimit : Nat}
    (inside : ∀ row ∈ page, row ∈ table) (positive : 1 ≤ rowLimit) (full : page.length = rowLimit)
    (fetched : List Json) : ∃ value, nextCursor? page path rowLimit = some value ∧
      lastKey? path (fetched ++ page) = some value := by
  cases page using List.reverseRecOn with
  | nil =>
    subst full
    exact (Nat.not_succ_le_zero 0 positive).elim
  | append_singleton earlier last =>
    obtain ⟨value, found, present⟩ := keyed.present last (inside last (by simp))
    have cursor :=
      nextCursor?_of_full (Nat.le_of_eq full.symm) List.getLast?_concat found present
    refine ⟨value, cursor, ?_⟩
    rw [lastKey?, ← List.append_assoc, List.getLast?_concat, Option.bind_some, found]

/-- A backend that is asked for the greatest keys first has the rows it selects in descending
order. -/
theorem Serves.descending {collection : String} {request : PreparedRequest}
    (serves : backend.Serves collection request)
    (keyed : backend.Keyed path (backend.matching request.queryVariables.conditions))
    (order : request.queryVariables.orderBy.head? = some ⟨path, .desc⟩) :
    ∃ ordered : List Json,
      (∀ row, row ∈ ordered ↔ row ∈ backend.matching request.queryVariables.conditions ∧
        request.queryVariables.paginationCondition.Holds (backend.holdsOf row) []) ∧
      (ordered.Pairwise fun first second => backend.KeyBelow path second first) ∧
      (backend.respond request).rows collection =
        ordered.take request.queryVariables.rowLimit := by
  obtain ⟨ordered, nodup, members, sorted, response⟩ := serves
  refine ⟨ordered, members, ?_, Json.rows_of_nested response⟩
  exact keyed.descending_of_sorted (fun row listed => ((members row).mp listed).1) nodup
    (sorted ⟨path, .desc⟩ order)

/-- A backend that is asked for the rows below the last key answers with the next rows. -/
theorem Serves.rows {collection : String} {request : PreparedRequest}
    (serves : backend.Serves collection request)
    (keyed : backend.Keyed path (backend.matching request.queryVariables.conditions))
    (order : request.queryVariables.orderBy.head? = some ⟨path, .desc⟩)
    {fetched rest : List Json} (all : ∀ row, row ∈ fetched ++ rest ↔
      row ∈ backend.matching request.queryVariables.conditions)
    (descending : (fetched ++ rest).Pairwise fun first second =>
      backend.KeyBelow path second first)
    (cursor : request.queryVariables.paginationCondition = .after path (lastKey? path fetched)) :
    (backend.respond request).rows collection = rest.take request.queryVariables.rowLimit := by
  obtain ⟨ordered, members, descending', rows⟩ := serves.descending keyed order
  have inside : ∀ row ∈ fetched ++ rest,
      row ∈ backend.matching request.queryVariables.conditions := fun row => (all row).mp
  have same : ordered = rest := by
    apply keyed.eq_of_descending (fun row listed => ((members row).mp listed).1) descending'
      (List.pairwise_append.mp descending).2.1
    intro row
    rw [members, cursor, ← all]
    constructor
    · rintro ⟨member, holds⟩
      exact (keyed.holds_after_iff inside descending member).mp holds
    · intro later
      have member : row ∈ fetched ++ rest := List.mem_append_right _ later
      exact ⟨member, (keyed.holds_after_iff inside descending member).mpr later⟩
  rw [rows, same]

end Backend

namespace Planner

variable {backend : Backend} {view : View} {rowLimit : Nat} {states : FormStates}
  {user : Condition}

/-- From the last key that was fetched on, the pages deliver the rest of the rows. The induction is
on the number of rows that remain: a page takes at least one of them, or is the last. -/
theorem fetches_rest (positive : 1 ≤ rowLimit) (compiled : states.condition view.schema = .ok user)
    (serves : backend.ServesView view states)
    (keyed : backend.Keyed view.paginationKey (backend.matching (view.conditions user)))
    (fetched rest : List Json)
    (all : ∀ row, row ∈ fetched ++ rest ↔ row ∈ backend.matching (view.conditions user))
    (descending : (fetched ++ rest).Pairwise fun first second =>
      backend.KeyBelow view.paginationKey second first) (generation : Generation) :
    ∃ pages, Fetches backend.respond states ⟨view, rowLimit, generation⟩
        (lastKey? view.paginationKey fetched) pages ∧
      pages.flatMap Page.rawRows = rest := by
  induction size : rest.length using Nat.strongRecOn generalizing fetched rest generation with
  | _ length ih =>
    obtain ⟨request, next, prepared⟩ : ∃ request next,
        (⟨view, rowLimit, generation⟩ : Planner).prepare states
          (lastKey? view.paginationKey fetched) = .ok (request, next) :=
      ⟨_, _, prepare_eq_ok_iff.mpr ⟨user, compiled, rfl, rfl⟩⟩
    have served := serves _ next _ request rfl prepared
    obtain ⟨same, known, asked, changed⟩ := prepare_eq_ok_iff.mp prepared
    cases compiled.symm.trans known
    have rows : (next.page (backend.respond request)).rawRows = rest.take rowLimit := by
      subst asked changed
      exact served.rows keyed rfl all descending rfl
    have cursor : (next.page (backend.respond request)).nextCursor =
        nextCursor? (rest.take rowLimit) view.paginationKey rowLimit := by
      rw [← rows]
      subst changed
      rfl
    by_cases short : rest.length < rowLimit
    · have whole : rest.take rowLimit = rest := List.take_of_length_le (Nat.le_of_lt short)
      rw [whole] at rows cursor
      refine ⟨[_], .last prepared (cursor.trans (nextCursor?_of_short short)), ?_⟩
      rw [List.flatMap_singleton, rows]
    · have full : (rest.take rowLimit).length = rowLimit := by
        rw [List.length_take, Nat.min_eq_left (Nat.not_lt.mp short)]
      have split : fetched ++ rest.take rowLimit ++ rest.drop rowLimit = fetched ++ rest := by
        rw [List.append_assoc, List.take_append_drop]
      have inside : ∀ row ∈ rest.take rowLimit, row ∈ backend.matching (view.conditions user) :=
        fun row taken => (all row).mp (List.mem_append_right _ (List.mem_of_mem_take taken))
      obtain ⟨value, continues, key⟩ := keyed.cursor_of_full inside positive full fetched
      have fewer : (rest.drop rowLimit).length < length := by
        rw [List.length_drop]
        omega
      obtain ⟨pages, later, delivered⟩ := ih _ fewer (fetched ++ rest.take rowLimit)
        (rest.drop rowLimit) (by rwa [split]) (by rwa [split]) next.generation rfl
      rw [key] at later
      subst changed
      refine ⟨_, .more prepared (cursor.trans continues) later, ?_⟩
      rw [List.flatMap_cons, rows, delivered, List.take_append_drop]

/-- Fetching page after page ends, in one way only, and delivers exactly the rows of the table, each
once, in descending order of the pagination key. -/
theorem pages_deliver_table (view : View) (states : FormStates) (rowLimit : Nat)
    (backend : Backend) (request : PreparedRequest) (next : Planner) (positive : 1 ≤ rowLimit)
    (prepared : (new view rowLimit).prepare states none = .ok (request, next))
    (serves : backend.ServesView view states)
    (keyed : backend.Keyed view.paginationKey
      (backend.matching request.queryVariables.conditions)) :
    ∃ pages, Fetches backend.respond states (new view rowLimit) none pages ∧
      (∀ others, Fetches backend.respond states (new view rowLimit) none others → others = pages) ∧
      (pages.flatMap Page.rawRows).Perm (backend.matching request.queryVariables.conditions) ∧
      (pages.flatMap Page.rawRows).Pairwise fun first second =>
        backend.KeyBelow view.paginationKey second first := by
  have served := serves _ next none request rfl prepared
  obtain ⟨user, compiled, rfl, rfl⟩ := prepare_eq_ok_iff.mp prepared
  obtain ⟨ordered, members, descending, _⟩ := served.descending keyed rfl
  have unbounded : ∀ row,
      (Condition.after view.paginationKey none).Holds (backend.holdsOf row) [] :=
    fun row => Condition.holds_after.mpr (by simp)
  have all : ∀ row, row ∈ ordered ↔ row ∈ backend.matching (view.conditions user) :=
    fun row => (members row).trans (and_iff_left (unbounded row))
  have inside : ∀ row ∈ ordered, row ∈ backend.matching (view.conditions user) :=
    fun row => (all row).mp
  obtain ⟨pages, fetched, delivered⟩ :=
    fetches_rest positive compiled serves keyed [] ordered all descending .none
  refine ⟨pages, fetched, fun others fetched' => fetched.unique fetched', ?_, ?_⟩
  · rw [delivered]
    exact (List.perm_ext_iff_of_nodup (keyed.nodup_of_descending inside descending)
      keyed.nodup).mpr all
  · rw [delivered]
    exact descending

/-- Events with the times at which they were seen, under a dotted path. -/
def events : View :=
  ⟨none, "events", [], ⟨[], []⟩, "events_bool_exp", "events_order_by", "seen.at", [], []⟩

def eventAt (time : Int) : Json :=
  .object [("seen", .object [("at", .int time)])]

def timeBelow : Json → Json → Bool
  | .number (.integer first), .number (.integer second) => first < second
  | _, _ => false

def operandOf? : Condition → Option Json
  | .fields [(_, .nested (.fields [(_, .comparison comparison)]))] => some comparison.operand
  | _ => none

def eventsBelow (bound : Option Json) : List Json :=
  [eventAt 3, eventAt 2, eventAt 1].filter fun row =>
    bound.all fun bound => (row.atPath? "seen.at").any fun time => timeBelow time bound

/-- A store of three events, which it does not keep in order. -/
def eventStore : Backend where
  matching _ := [eventAt 1, eventAt 3, eventAt 2]
  below first second := timeBelow first second = true
  respond request :=
    let rows := eventsBelow (operandOf? request.queryVariables.paginationCondition)
    .object [("data", .object [("events", .array (rows.take request.queryVariables.rowLimit))])]

theorem atPath_eventAt (time : Int) : (eventAt time).atPath? "seen.at" = some (.int time) := by
  rfl

theorem keyBelow_eventAt {first second : Int} :
    eventStore.KeyBelow "seen.at" (eventAt first) (eventAt second) ↔ first < second := by
  simp [Backend.KeyBelow, atPath_eventAt, eventStore, timeBelow, Json.int]

theorem mem_eventsBelow {bound : Option Json} {row : Json} :
    row ∈ eventsBelow bound ↔ row ∈ [eventAt 1, eventAt 3, eventAt 2] ∧
      ∀ operand ∈ bound, ∃ time, row.atPath? "seen.at" = some time ∧
        timeBelow time operand = true := by
  have same : row ∈ [eventAt 3, eventAt 2, eventAt 1] ↔
      row ∈ [eventAt 1, eventAt 3, eventAt 2] := by
    simp only [List.mem_cons, List.not_mem_nil, or_false]
    tauto
  rw [eventsBelow, List.mem_filter, same]
  cases bound with
  | none => simp
  | some operand => cases row.atPath? "seen.at" <;> simp

theorem eventStore_serves : eventStore.ServesView events [] := by
  rintro planner next cursor request same prepared
  obtain ⟨user, _, rfl, rfl⟩ := prepare_eq_ok_iff.mp prepared
  rw [same]
  have operand : operandOf? (.after "seen.at" cursor) = cursor.filter (!·.isNull) := by
    rcases cursor with _ | _ | _ <;> rfl
  have descending : [eventAt 3, eventAt 2, eventAt 1].Pairwise fun first second =>
      ¬ eventStore.Precedes ⟨"seen.at", .desc⟩ second first := by
    simp [Backend.Precedes, Direction.isDescending, keyBelow_eventAt]
  refine ⟨eventsBelow (cursor.filter (!·.isNull)), ?_, ?_, ?_, ?_⟩
  · apply List.Pairwise.filter
    simp [eventAt, Json.int]
  · intro row
    rw [mem_eventsBelow, Condition.holds_after]
    rfl
  · rintro term ⟨⟩
    exact descending.filter _
  · exact congrArg
      (fun bound => some (Json.array ((eventsBelow bound).take planner.rowLimit))) operand

theorem threeEvents_delivered :
    (∃ request next, (new events 2).prepare [] none = .ok (request, next)) ∧
      eventStore.ServesView events [] ∧
      eventStore.Keyed "seen.at" [eventAt 1, eventAt 3, eventAt 2] ∧
      ∃ pages, Fetches eventStore.respond [] (new events 2) none pages ∧
        (pages.flatMap Page.rawRows).Perm [eventAt 1, eventAt 3, eventAt 2] := by
  have keyed : eventStore.Keyed "seen.at" [eventAt 1, eventAt 3, eventAt 2] := by
    constructor
    · simp [atPath_eventAt, Json.int, Json.isNull]
    · simp [keyBelow_eventAt]
    · simp [keyBelow_eventAt]
    · simp [keyBelow_eventAt]
  obtain ⟨request, next, prepared⟩ :
      ∃ request next, (new events 2).prepare [] none = .ok (request, next) :=
    ⟨_, _, prepare_eq_ok_iff.mpr ⟨.empty, rfl, rfl, rfl⟩⟩
  obtain ⟨pages, fetched, _, delivered, _⟩ := pages_deliver_table events [] 2 eventStore request
    next (by decide) prepared eventStore_serves keyed
  exact ⟨⟨request, next, prepared⟩, eventStore_serves, keyed, pages, fetched, delivered⟩

end Planner

end GridQuery
