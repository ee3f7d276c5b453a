import GridQuery.Paging.Planner
import GridQuery.Proofs.Outcome
import Mathlib.Data.List.Induction

/-!
Histories of a planner: requests are prepared and responses come in, late, repeatedly or never, in
any order. Tickets are issued in increasing order, only the response to the newest ticket counts,
and what issues no ticket leaves no trace in the answers that follow.
-/

namespace GridQuery

inductive FetchEvent where
  | prepare (states : FormStates) (cursor : Option Json)
  | receive (ticket : Ticket) (response : Json)

inductive FetchAnswer where
  | issued (request : PreparedRequest)
  | refused (error : ViewError)
  | settled (outcome : Settled Page)

def FetchAnswer.ticket? : FetchAnswer → Option Ticket
  | .issued request => some request.ticket
  | _ => none

/-- The ticket of the successful request at a place, counted from zero. -/
def Ticket.nth (place : Nat) : Ticket :=
  ⟨UInt64.ofNat (place + 1)⟩

namespace Planner

def step (planner : Planner) : FetchEvent → FetchAnswer × Planner
  | .prepare states cursor =>
    match planner.prepare states cursor with
    | .ok (request, next) => (.issued request, next)
    | .error error => (.refused error, planner)
  | .receive ticket response => (.settled (planner.receive ticket response), planner)

def answers (planner : Planner) : List FetchEvent → List FetchAnswer
  | [] => []
  | event :: rest => (planner.step event).1 :: (planner.step event).2.answers rest

def after (planner : Planner) : List FetchEvent → Planner
  | [] => planner
  | event :: rest => (planner.step event).2.after rest

/-- The tickets issued to a history, the newest last. -/
def issued (planner : Planner) (events : List FetchEvent) : List Ticket :=
  (planner.answers events).filterMap FetchAnswer.ticket?

variable {start planner : Planner} {tickets : List Ticket}

theorem length_answers (planner : Planner) (events : List FetchEvent) :
    (planner.answers events).length = events.length := by
  induction events generalizing planner with
  | nil => rfl
  | cons event rest ih => rw [answers, List.length_cons, ih, List.length_cons]

theorem answers_append (planner : Planner) (before later : List FetchEvent) :
    planner.answers (before ++ later) =
      planner.answers before ++ (planner.after before).answers later := by
  induction before generalizing planner with
  | nil => rfl
  | cons event rest ih => rw [List.cons_append, answers, ih, answers, after, List.cons_append]

theorem after_append (planner : Planner) (before later : List FetchEvent) :
    planner.after (before ++ later) = (planner.after before).after later := by
  induction before generalizing planner with
  | nil => rfl
  | cons event rest ih => rw [List.cons_append, after, ih, after]

theorem answer_at (planner : Planner) (before : List FetchEvent) (event : FetchEvent)
    (later : List FetchEvent) : (planner.answers (before ++ event :: later))[before.length]? =
      some ((planner.after before).step event).1 := by
  rw [answers_append, List.getElem?_append_right (Nat.le_of_eq (length_answers ..)), length_answers,
    Nat.sub_self]
  rfl

/-- An event that issues no ticket leaves the planner as it was. -/
theorem step_of_no_ticket {event : FetchEvent} (none : (planner.step event).1.ticket? = none) :
    (planner.step event).2 = planner := by
  cases event with
  | prepare states cursor =>
    rw [step] at none ⊢
    split at none
    next => cases none
    next => rfl
  | receive ticket response => rfl

/-- A request is prepared whenever the form compiles. It asks for the rows after the cursor, those
with the greatest keys first, and the planner changes in its generation only. -/
theorem prepare_eq_ok_iff {states : FormStates} {cursor : Option Json} {request : PreparedRequest}
    {next : Planner} : planner.prepare states cursor = .ok (request, next) ↔
      ∃ user, states.condition planner.view.schema = .ok user ∧
        request = ⟨⟨planner.generation.latest + 1⟩, planner.query,
          ⟨planner.view.conditions user, .after planner.view.paginationKey cursor,
            planner.rowLimit, ⟨planner.view.paginationKey, .desc⟩ :: planner.view.staticOrder⟩⟩ ∧
        next = { planner with generation := ⟨planner.generation.latest + 1⟩ } := by
  constructor
  · intro prepared
    obtain ⟨values, built, prepared⟩ := bind_eq_ok.mp prepared
    obtain ⟨user, compiled, built⟩ := bind_eq_ok.mp built
    cases built
    cases prepared
    exact ⟨user, compiled, rfl, rfl⟩
  · rintro ⟨user, compiled, rfl, rfl⟩
    rw [prepare, View.queryVariables, compiled]
    rfl

/-- The planner has issued these tickets, numbered from one on, since it was `start`. -/
structure Numbered (start planner : Planner) (tickets : List Ticket) : Prop where
  view : planner.view = start.view
  rowLimit : planner.rowLimit = start.rowLimit
  latest : planner.generation.latest = UInt64.ofNat tickets.length
  numbers : tickets = (List.range tickets.length).map Ticket.nth

theorem numbered_new (view : View) (rowLimit : Nat) :
    Numbered (new view rowLimit) (new view rowLimit) [] :=
  ⟨rfl, rfl, rfl, rfl⟩

theorem Numbered.prepare (numbered : Numbered start planner tickets) {states : FormStates}
    {cursor : Option Json} {request : PreparedRequest} {next : Planner}
    (prepared : planner.prepare states cursor = .ok (request, next)) :
    Numbered start next (tickets ++ [request.ticket]) := by
  obtain ⟨user, _, rfl, rfl⟩ := prepare_eq_ok_iff.mp prepared
  have number : planner.generation.latest + 1 = UInt64.ofNat (tickets.length + 1) := by
    rw [numbered.latest, UInt64.ofNat_add]
    rfl
  refine ⟨numbered.view, numbered.rowLimit, ?_, ?_⟩
  · rw [List.length_append, List.length_singleton, number]
  · rw [List.length_append, List.length_singleton, List.range_succ, List.map_append,
      ← numbered.numbers, number]
    rfl

/-- Whatever happens next, the tickets stay numbered. -/
theorem Numbered.step (numbered : Numbered start planner tickets) (event : FetchEvent) :
    Numbered start (planner.step event).2
      (tickets ++ [(planner.step event).1].filterMap FetchAnswer.ticket?) := by
  cases event with
  | receive ticket response => exact (List.append_nil tickets).symm ▸ numbered
  | prepare states cursor =>
    rw [Planner.step]
    cases prepared : planner.prepare states cursor with
    | error error => exact (List.append_nil tickets).symm ▸ numbered
    | ok result => exact numbered.prepare prepared

theorem numbered_after (view : View) (rowLimit : Nat) (events : List FetchEvent) :
    Numbered (new view rowLimit) ((new view rowLimit).after events)
      ((new view rowLimit).issued events) := by
  induction events using List.reverseRecOn with
  | nil => exact numbered_new view rowLimit
  | append_singleton before event ih =>
    rw [after_append, issued, answers_append, List.filterMap_append]
    exact ih.step event

/-- Tickets are numbered in the order of their issue, as long as the numbers do not wrap around. -/
theorem Numbered.increasing (numbered : Numbered start planner tickets)
    (few : tickets.length < UInt64.size) :
    tickets.Pairwise fun earlier later => earlier.generation < later.generation := by
  rw [numbered.numbers, List.pairwise_map]
  apply List.pairwise_lt_range.imp_of_mem
  intro earlier later _ inside below
  have bound : later + 1 < UInt64.size := Nat.lt_of_le_of_lt (List.mem_range.mp inside) few
  have bound' : earlier + 1 < UInt64.size := Nat.lt_trans (Nat.succ_lt_succ below) bound
  rw [UInt64.lt_iff_toNat_lt, Ticket.nth, Ticket.nth, UInt64.toNat_ofNat_of_lt' bound',
    UInt64.toNat_ofNat_of_lt' bound]
  exact Nat.succ_lt_succ below

/-- Of the tickets issued, the newest one is current. -/
theorem Numbered.isCurrent_iff (numbered : Numbered start planner tickets) {ticket : Ticket}
    (issued : ticket ∈ tickets) :
    planner.generation.isCurrent ticket = true ↔ tickets.getLast? = some ticket := by
  have split := (List.dropLast_concat_getLast (List.ne_nil_of_mem issued)).symm
  generalize tickets.dropLast = earlier, tickets.getLast _ = newest at split
  subst split
  have newest_eq : newest = Ticket.nth earlier.length := by
    have numbers := numbered.numbers
    rw [List.length_append, List.length_singleton, List.range_succ, List.map_append] at numbers
    exact List.singleton_inj.mp (List.append_inj' numbers rfl).2
  have latest := numbered.latest
  rw [List.length_append, List.length_singleton] at latest
  rw [List.getLast?_concat, Option.some_inj, newest_eq, Generation.isCurrent, latest,
    decide_eq_true_iff]
  constructor
  · rintro same
    rw [Ticket.nth, same]
  · rintro rfl
    rfl

theorem Numbered.receive (numbered : Numbered start planner tickets) {ticket : Ticket}
    (issued : ticket ∈ tickets) (response : Json) :
    planner.receive ticket response =
      if tickets.getLast? = some ticket then .current (start.page response) else .superseded := by
  have page : planner.page response = start.page response := by
    rw [Planner.page, Planner.page, numbered.view, numbered.rowLimit]
  rw [Planner.receive, Generation.settle, page]
  simp only [numbered.isCurrent_iff issued]

/-- What a history of a planner shows. A response that comes in for a ticket issued before counts if
that is the newest ticket then, and is superseded otherwise. An event that issues no ticket, be it a
request that fails or a response, leaves the answers to all other events as they are without it. -/
structure NewestCounts (start : Planner) (events : List FetchEvent) : Prop where
  increasing : (start.issued events).Pairwise fun earlier later =>
    earlier.generation < later.generation
  received : ∀ before ticket response later, events = before ++ .receive ticket response :: later →
    ticket ∈ start.issued before →
      (start.answers events)[before.length]? =
        some (.settled (if (start.issued before).getLast? = some ticket
          then .current (start.page response) else .superseded))
  traceless : ∀ before event later, events = before ++ event :: later →
    (start.answers events)[before.length]?.bind FetchAnswer.ticket? = none →
      (start.answers events).eraseIdx before.length = start.answers (before ++ later)

theorem newest_ticket_counts (view : View) (rowLimit : Nat) (events : List FetchEvent)
    (few : ((new view rowLimit).issued events).length < UInt64.size) :
    (new view rowLimit).NewestCounts events where
  increasing := (numbered_after view rowLimit events).increasing few
  received := by
    rintro before ticket response later rfl issued
    rw [answer_at, step, (numbered_after view rowLimit before).receive issued]
  traceless := by
    rintro before event later rfl unticketed
    rw [answer_at] at unticketed
    rw [answers_append, answers_append, answers, step_of_no_ticket unticketed,
      List.eraseIdx_append_of_length_le (Nat.le_of_eq (length_answers ..)), length_answers,
      Nat.sub_self]
    rfl

def users : View :=
  ⟨none, "users", [], ⟨[], [⟨"name", "Name",
    .leaf (.plain .equals (.one "name") (.text none none)), none, false⟩]⟩,
    "users_bool_exp", "users_order_by", "id", [], []⟩

def oneUser : Json :=
  .object [("users", .array [.object []])]

/-- A request that fails between two that succeed, and then their responses, the older one last and
once more. -/
def lateResponses : List FetchEvent :=
  [.prepare [] none, .prepare [("name", .and [])] none, .prepare [] (some (.int 7)),
    .receive ⟨2⟩ oneUser, .receive ⟨1⟩ (.object []), .receive ⟨1⟩ (.object [])]

/-- Two tickets are issued. The response to the newer one counts, and those to the older one are
superseded. -/
theorem lateResponses_superseded :
    ((new users 1).issued lateResponses).length < UInt64.size ∧
      (new users 1).issued lateResponses = [⟨1⟩, ⟨2⟩] ∧
      ((new users 1).answers lateResponses)[3]? =
        some (.settled (.current ((new users 1).page oneUser))) ∧
      ((new users 1).answers lateResponses)[4]? = some (.settled .superseded) ∧
      ((new users 1).answers lateResponses)[5]? = some (.settled .superseded) := by
  have issued : (new users 1).issued lateResponses = [⟨1⟩, ⟨2⟩] := by rfl
  have few : ((new users 1).issued lateResponses).length < UInt64.size := by
    rw [issued]
    decide
  have counts := (newest_ticket_counts users 1 lateResponses few).received
  have newer := counts (lateResponses.take 3) ⟨2⟩ oneUser (lateResponses.drop 4) rfl
  have older := counts (lateResponses.take 4) ⟨1⟩ (.object []) (lateResponses.drop 5) rfl
  have again := counts (lateResponses.take 5) ⟨1⟩ (.object []) [] rfl
  -- Responses issue no ticket.
  have early : ∀ place ∈ [3, 4, 5],
      (new users 1).issued (lateResponses.take place) = [⟨1⟩, ⟨2⟩] := by
    simp only [List.forall_mem_cons]
    exact ⟨rfl, rfl, rfl, nofun⟩
  rw [early 3 (by decide)] at newer
  rw [early 4 (by decide)] at older
  rw [early 5 (by decide)] at again
  exact ⟨few, issued, newer (by decide), older (by decide), again (by decide)⟩

end Planner

end GridQuery
