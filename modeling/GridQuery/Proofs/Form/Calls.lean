import GridQuery.Proofs.Form.Passes

/-!
The calls of a fold, whatever its handlers do. A visitor that logs its calls makes those of the
visitor without a log, in the order of the tour, and stops at the first fault or failure.
-/

namespace GridQuery

variable {σ α β γ : Type}

/-- Computations with a memory of their own. What they have changed stays changed if they fail. -/
abbrev Visiting (σ : Type) :=
  ExceptT ViewError (StateM σ)

namespace Visiting

/-- What a computation comes to, and the memory that it leaves. -/
def runFrom (computation : Visiting σ β) (memory : σ) : Except ViewError β × σ :=
  computation.run.run memory

variable {first : Visiting σ β} {next : β → Visiting σ γ} {memory left : σ}

theorem runFrom_bind_ok {value : β} (ran : first.runFrom memory = (.ok value, left)) :
    runFrom (first >>= next) memory = (next value).runFrom left := by
  have ran : StateT.run (ExceptT.run first) memory = (.ok value, left) := ran
  simp only [runFrom, ExceptT.run_bind, StateT.run_bind, ran]
  rfl

theorem runFrom_bind_error {error : ViewError}
    (ran : first.runFrom memory = (.error error, left)) :
    runFrom (first >>= next) memory = (.error error, left) := by
  have ran : StateT.run (ExceptT.run first) memory = (.error error, left) := ran
  simp only [runFrom, ExceptT.run_bind, StateT.run_bind, ran]
  rfl

end Visiting

/-- Calls with what came of them. -/
abbrev CallLog (α : Type) :=
  List (Call α × Except ViewError α)

/-- Handles a call and enters it into the log. -/
def Call.logged (call : Call α) (handled : Visiting σ α) : Visiting (σ × CallLog α) α :=
  ExceptT.mk fun (memory, log) =>
    let (outcome, left) := handled.runFrom memory
    (outcome, left, log ++ [(call, outcome)])

/-- The same visitor, keeping a log of all calls beside its memory. -/
def FormVisitor.logged (visitor : FormVisitor (Visiting σ) α) :
    FormVisitor (Visiting (σ × CallLog α)) α where
  leaf contents value := (Call.leaf contents value).logged (visitor.leaf contents value)
  and filters children results :=
    (Call.and filters children results).logged (visitor.and filters children results)
  or filters children results :=
    (Call.or filters children results).logged (visitor.or filters children results)
  not filter child result := (Call.not filter child result).logged (visitor.not filter child result)

namespace FormState

/-- With a log or without, the computation comes to the same. Its visits go with the moments, and
its result is one that they give. -/
def RunsAlong (state : FormState) (expression : FilterExpr) (moments : List Moment)
    (before : List (Visit α)) (plain : Visiting σ β) (logged : Visiting (σ × CallLog α) β)
    (gives : List (Visit α) → β → Prop) : Prop :=
  ∀ memory, ∃ visits outcome left, plain.runFrom memory = (outcome, left) ∧
    logged.runFrom (memory, before.map Visit.entry) =
      (outcome, left, (before ++ visits).map Visit.entry) ∧
    Passes state expression before moments visits (failure? outcome) ∧
    ∀ result, outcome = .ok result → gives visits result

namespace RunsAlong

variable {state : FormState} {expression : FilterExpr} {moments later : List Moment}
  {before : List (Visit α)} {plain : Visiting σ β} {logged : Visiting (σ × CallLog α) β}
  {next : β → Visiting σ γ} {next' : β → Visiting (σ × CallLog α) γ}
  {gives : List (Visit α) → β → Prop} {gives' : List (Visit α) → γ → Prop} {place : List Nat}

theorem done {result : β} (given : gives [] result) :
    RunsAlong state expression [] before (pure result : Visiting σ β) (pure result) gives := by
  intro memory
  refine ⟨[], .ok result, memory, rfl, ?_, .done before, ?_⟩
  · rw [List.append_nil]
    rfl
  · rintro _ ⟨⟩
    exact given

theorem entered (sound : ∀ error, ¬ FaultAt state expression place error)
    (runs : RunsAlong state expression moments before plain logged gives) :
    RunsAlong state expression (.enter place :: moments) before plain logged gives := by
  intro memory
  obtain ⟨visits, outcome, left, ran, ran', passes, given⟩ := runs memory
  exact ⟨visits, outcome, left, ran, ran', .entered sound passes, given⟩

theorem faulty {error : ViewError} (fault : FaultAt state expression place error) :
    RunsAlong state expression (.enter place :: moments) before (throw error : Visiting σ β)
      (throw error) gives := by
  intro memory
  refine ⟨[], .error error, memory, rfl, ?_, .faulty fault, nofun⟩
  rw [List.append_nil]
  rfl

theorem called {call : Call α} (asked : CallAt state expression before place call)
    (handled : Visiting σ α) :
    RunsAlong state expression [.leave place] before handled (call.logged handled)
      fun visits result => Gave visits place result := by
  intro memory
  cases ran : handled.runFrom memory with | mk outcome left =>
  refine ⟨[⟨place, call, outcome⟩], outcome, left, rfl, ?_, ?_, ?_⟩
  · have noted : (call.logged handled).runFrom (memory, before.map Visit.entry) =
        ((handled.runFrom memory).1, (handled.runFrom memory).2,
          before.map Visit.entry ++ [(call, (handled.runFrom memory).1)]) := rfl
    rw [noted, ran, List.map_append]
    rfl
  · cases outcome with
    | ok result => exact .called asked (.done _)
    | error error => exact .failed asked
  · rintro result rfl
    exact ⟨_, List.mem_singleton_self _, rfl, rfl⟩

theorem bind (runs : RunsAlong state expression moments before plain logged gives)
    (rest : ∀ visits result, gives visits result →
      RunsAlong state expression later (before ++ visits) (next result) (next' result)
        fun more final => gives' (visits ++ more) final) :
    RunsAlong state expression (moments ++ later) before (plain >>= next) (logged >>= next')
      gives' := by
  intro memory
  obtain ⟨visits, outcome, left, ran, ran', passes, given⟩ := runs memory
  cases outcome with
  | error error =>
    exact ⟨visits, .error error, left, Visiting.runFrom_bind_error ran,
      Visiting.runFrom_bind_error ran', passes.stopped, nofun⟩
  | ok result =>
    obtain ⟨more, outcome, left, goes, goes', passes', given'⟩ :=
      rest visits result (given result rfl) left
    refine ⟨visits ++ more, outcome, left, (Visiting.runFrom_bind_ok ran).trans goes, ?_,
      passes.append passes', given'⟩
    rw [Visiting.runFrom_bind_ok ran', goes', List.append_assoc]

/-- A node is entered, its children are gone through, and its handler is called with what they
gave. -/
theorem around {call : β → Call α} {handle : β → Visiting σ α}
    (sound : ∀ error, ¬ FaultAt state expression place error)
    (below : RunsAlong state expression moments before plain logged gives)
    (asked : ∀ visits result, gives visits result →
      CallAt state expression (before ++ visits) place (call result)) :
    RunsAlong state expression (.enter place :: (moments ++ [.leave place])) before
      (plain >>= handle) (logged >>= fun result => (call result).logged (handle result))
      fun visits result => Gave visits place result := by
  refine (below.bind fun visits result given => ?_).entered sound
  intro memory
  obtain ⟨more, outcome, left, ran, ran', passes, gave⟩ :=
    called (asked visits result given) (handle result) memory
  exact ⟨more, outcome, left, ran, ran', passes, fun final made =>
    (gave final made).subset (List.subset_append_right ..)⟩

end RunsAlong

section

variable {state : FormState} {expression : FilterExpr}

mutual

theorem fold_runs (visitor : FormVisitor (Visiting σ) α) : ∀ (node : FormState)
    (inner : FilterExpr) (place : List Nat) (before : List (Visit α)),
    state.at? place = some node → expression.at? place = some inner →
      RunsAlong state expression (node.tourFrom place) before (node.fold visitor inner)
        (node.fold visitor.logged inner) fun visits result => Gave visits place result
  | .leaf value, inner, place, before, here, there => by
    cases inner with
    | leaf contents =>
      exact (RunsAlong.called (.leaf here there) _).entered (sound_of_alike here there rfl)
    | and | or | not => exact .faulty (.kind here there nofun)
  | .and children, inner, place, before, here, there => by
    cases inner with
    | and filters =>
      have below := foldChildren_runs visitor children filters 0 place before here there rfl rfl rfl
        (Nat.zero_le _)
      exact below.around (sound_of_alike here there rfl) fun visits results gave =>
        .and here there (gave.subset (List.subset_append_right ..))
    | leaf | or | not => exact .faulty (.kind here there nofun)
  | .or children, inner, place, before, here, there => by
    cases inner with
    | or filters =>
      have below := foldChildren_runs visitor children filters 0 place before here there rfl rfl rfl
        (Nat.zero_le _)
      exact below.around (sound_of_alike here there rfl) fun visits results gave =>
        .or here there (gave.subset (List.subset_append_right ..))
    | leaf | and | not => exact .faulty (.kind here there nofun)
  | .not child, inner, place, before, here, there => by
    cases inner with
    | not filter =>
      have inside : state.at? (place ++ [0]) = some child := by
        rw [at?_snoc, here]
        rfl
      have offered : expression.at? (place ++ [0]) = some filter := by
        rw [FilterExpr.at?_snoc, there]
        rfl
      have below := fold_runs visitor child filter (place ++ [0]) before inside offered
      exact below.around (sound_of_alike here there rfl)
        fun visits result gave => .not here there (gave.subset (List.subset_append_right ..))
    | leaf | and | or => exact .faulty (.kind here there nofun)
termination_by structural node => node

theorem foldChildren_runs (visitor : FormVisitor (Visiting σ) α) {node : FormState}
    {inner : FilterExpr} : ∀ (rest : List FormState) (others : List FilterExpr) (index : Nat)
    (parent : List Nat) (before : List (Visit α)), state.at? parent = some node →
      expression.at? parent = some inner → node.kind = inner.kind →
      node.parts.drop index = rest → inner.parts.drop index = others →
      index ≤ inner.parts.length →
        RunsAlong state expression (tourOfList parent index rest) before
          (foldChildren visitor index rest others) (foldChildren visitor.logged index rest others)
          fun visits results => GaveEach visits parent index rest.length results
  | [], _, _, _, _, _, _, _, _, _, _ => .done ⟨rfl, nofun⟩
  | child :: rest, others, index, parent, before, here, there, alike, onward, onward', enough => by
    obtain ⟨listed, onward⟩ := drop_eq_cons onward
    have inside : state.at? (parent ++ [index]) = some child := by
      rw [at?_snoc, here]
      exact listed
    cases others with
    | nil =>
      -- There is a child too many, which shows as soon as it is entered.
      have last : index = inner.parts.length :=
        Nat.le_antisymm enough (List.drop_eq_nil_iff.mp onward')
      obtain ⟨more, _⟩ := List.getElem?_eq_some_iff.mp listed
      obtain ⟨later, tour⟩ := tourFrom_eq_cons (parent ++ [index]) child
      rw [tourOfList, tour]
      subst last
      exact .faulty (.overfull here there alike more rfl)
    | cons filter others =>
      obtain ⟨listed', onward'⟩ := drop_eq_cons onward'
      obtain ⟨within, _⟩ := List.getElem?_eq_some_iff.mp listed'
      have offered : expression.at? (parent ++ [index]) = some filter := by
        rw [FilterExpr.at?_snoc, there]
        exact listed'
      have first := fold_runs visitor child filter (parent ++ [index]) before inside offered
      refine first.bind fun visits result gave => ?_
      have later := foldChildren_runs visitor rest others (index + 1) parent (before ++ visits)
        here there alike onward onward' within
      rw [← List.append_nil (tourOfList parent (index + 1) rest)]
      refine later.bind fun more results given => .done ?_
      rw [List.append_nil]
      exact .cons gave given

end

end

/-- Whatever a visitor remembers and wherever it fails, a fold calls its handlers along the tour of
the state, each with the nodes at its place and with what the calls for the children gave. It comes
to the same with a log as without. -/
theorem fold_calls (visitor : FormVisitor (Visiting σ) α) (state : FormState)
    (expression : FilterExpr) (memory : σ) :
    ∃ visits outcome left,
      (state.fold visitor expression).runFrom memory = (outcome, left) ∧
      (state.fold visitor.logged expression).runFrom (memory, []) =
        (outcome, left, visits.map Visit.entry) ∧
      CallsInOrder state expression visits outcome := by
  obtain ⟨visits, outcome, left, ran, ran', passes, gives⟩ :=
    fold_runs visitor state expression [] [] rfl rfl memory
  exact ⟨visits, outcome, left, ran, ran', callsInOrder_of_passes passes gives⟩

end FormState

end GridQuery
