import GridQuery.Proofs.Form.Shape
import Mathlib.Data.List.Lex

/-!
Places in the trees of states and expressions: the numbers of the children on the way from the root.
In lexicographic order of their places the nodes come from left to right, each before what is below
it. Checking the shape of a state reports the fault at the first place that has one.
-/

namespace GridQuery

namespace FilterExpr

/-- The children of a node from left to right. -/
def parts : FilterExpr → List FilterExpr
  | .leaf _ => []
  | .and filters => filters
  | .or filters => filters
  | .not filter => [filter]

/-- The node at a place, if there is one. -/
def at? (expression : FilterExpr) : List Nat → Option FilterExpr
  | [] => some expression
  | number :: place => expression.parts[number]?.bind fun filter => filter.at? place

theorem at?_cons {expression inner : FilterExpr} {number : Nat} {place : List Nat} :
    expression.at? (number :: place) = some inner ↔
      ∃ filter, expression.parts[number]? = some filter ∧ filter.at? place = some inner :=
  Option.bind_eq_some_iff

theorem at?_append (expression : FilterExpr) (place rest : List Nat) :
    expression.at? (place ++ rest) = (expression.at? place).bind fun inner => inner.at? rest := by
  induction place generalizing expression with
  | nil => rfl
  | cons number place ih =>
    rw [List.cons_append, at?, at?]
    cases expression.parts[number]? with
    | none => rfl
    | some filter => exact ih filter

theorem at?_snoc (expression : FilterExpr) (place : List Nat) (number : Nat) :
    expression.at? (place ++ [number]) =
      (expression.at? place).bind fun inner => inner.parts[number]? := by
  simp only [at?_append, at?, Option.bind_fun_some]

end FilterExpr

namespace FormState

def parts : FormState → List FormState
  | .leaf _ => []
  | .and children => children
  | .or children => children
  | .not child => [child]

def at? (state : FormState) : List Nat → Option FormState
  | [] => some state
  | number :: place => state.parts[number]?.bind fun child => child.at? place

theorem at?_cons {state node : FormState} {number : Nat} {place : List Nat} :
    state.at? (number :: place) = some node ↔
      ∃ child, state.parts[number]? = some child ∧ child.at? place = some node :=
  Option.bind_eq_some_iff

theorem at?_append (state : FormState) (place rest : List Nat) :
    state.at? (place ++ rest) = (state.at? place).bind fun node => node.at? rest := by
  induction place generalizing state with
  | nil => rfl
  | cons number place ih =>
    rw [List.cons_append, at?, at?]
    cases state.parts[number]? with
    | none => rfl
    | some child => exact ih child

theorem at?_snoc (state : FormState) (place : List Nat) (number : Nat) :
    state.at? (place ++ [number]) = (state.at? place).bind fun node => node.parts[number]? := by
  simp only [at?_append, at?, Option.bind_fun_some]

/-- Every node has one of its kind at its place in the expression, with no fewer children. -/
def Covered (state : FormState) (expression : FilterExpr) : Prop :=
  ∀ place node, state.at? place = some node → ∃ inner, expression.at? place = some inner ∧
    node.kind = inner.kind ∧ node.parts.length ≤ inner.parts.length

/-- What is wrong at a place. Where a node has more children than the expression's, the fault is at
the place of the first child without an expression. -/
inductive FaultAt (state : FormState) (expression : FilterExpr) : List Nat → ViewError → Prop
  | kind {place : List Nat} {node : FormState} {inner : FilterExpr}
      (here : state.at? place = some node) (there : expression.at? place = some inner)
      (differ : node.kind ≠ inner.kind) :
      FaultAt state expression place (.schemaMismatch node.kind inner.kind)
  | overfull {parent place : List Nat} {node : FormState} {inner : FilterExpr}
      (here : state.at? parent = some node) (there : expression.at? parent = some inner)
      (alike : node.kind = inner.kind) (more : inner.parts.length < node.parts.length)
      (last : place = parent ++ [inner.parts.length]) :
      FaultAt state expression place (.missingChildSchema inner.parts.length)

/-- A fault in a child, or a child without an expression. The children are counted from `index`
on. -/
def FaultBelow (index : Nat) (children : List FormState) (filters : List FilterExpr) :
    List Nat → ViewError → Prop
  | [], _ => False
  | number :: place, error =>
    (∃ child filter, children[number]? = some child ∧ filters[number]? = some filter ∧
      FaultAt child filter place error) ∨
    (place = [] ∧ number = filters.length ∧ number < children.length ∧
      error = .missingChildSchema (index + number))

section

variable {state child : FormState} {expression filter : FilterExpr} {children : List FormState}
  {others filters : List FilterExpr} {index number : Nat} {place rest : List Nat}
  {error other : ViewError}

theorem faultAt_nil : FaultAt state expression [] error ↔
    state.kind ≠ expression.kind ∧ error = .schemaMismatch state.kind expression.kind := by
  constructor
  · intro fault
    cases fault with
    | kind here there differ =>
      cases here
      cases there
      exact ⟨differ, rfl⟩
    | overfull _ _ _ _ last => exact absurd last.symm (List.append_ne_nil_of_right_ne_nil _ nofun)
  · rintro ⟨differ, rfl⟩
    exact .kind rfl rfl differ

/-- A fault of what stands at one place in both trees is a fault of the trees. -/
theorem FaultAt.lift (fault : FaultAt child filter rest error)
    (here : state.at? place = some child) (there : expression.at? place = some filter) :
    FaultAt state expression (place ++ rest) error := by
  have below {inside : List Nat} {node : FormState} (found : child.at? inside = some node) :
      state.at? (place ++ inside) = some node := by
    rw [at?_append, here, Option.bind_some, found]
  have below' {inside : List Nat} {inner : FilterExpr} (found : filter.at? inside = some inner) :
      expression.at? (place ++ inside) = some inner := by
    rw [FilterExpr.at?_append, there, Option.bind_some, found]
  cases fault with
  | kind here there differ => exact .kind (below here) (below' there) differ
  | overfull here there alike more last =>
    refine .overfull (below here) (below' there) alike more ?_
    rw [last, List.append_assoc]

theorem faultAt_cons (alike : state.kind = expression.kind) :
    FaultAt state expression (number :: place) error ↔
      FaultBelow 0 state.parts expression.parts (number :: place) error := by
  constructor
  · intro fault
    cases fault with
    | kind here there differ =>
      obtain ⟨child, inside, here⟩ := at?_cons.mp here
      obtain ⟨filter, offered, there⟩ := FilterExpr.at?_cons.mp there
      exact .inl ⟨child, filter, inside, offered, .kind here there differ⟩
    | @overfull parent _ node inner here there same more last =>
      cases parent with
      | nil =>
        cases here
        cases there
        obtain ⟨rfl, rfl⟩ := List.cons.inj last
        exact .inr ⟨rfl, rfl, more, by rw [Nat.zero_add]⟩
      | cons number parent =>
        obtain ⟨rfl, rfl⟩ := List.cons.inj last
        obtain ⟨child, inside, here⟩ := at?_cons.mp here
        obtain ⟨filter, offered, there⟩ := FilterExpr.at?_cons.mp there
        exact .inl ⟨child, filter, inside, offered, .overfull here there same more rfl⟩
  · rintro (⟨child, filter, inside, offered, fault⟩ | ⟨rfl, rfl, more, rfl⟩)
    · have here : state.at? [number] = some child := at?_cons.mpr ⟨child, inside, rfl⟩
      have there : expression.at? [number] = some filter :=
        FilterExpr.at?_cons.mpr ⟨filter, offered, rfl⟩
      exact fault.lift here there
    · have root : state.at? [] = some state := rfl
      rw [Nat.zero_add]
      exact .overfull root rfl alike more rfl

/-- Where the kinds agree, all faults are below. -/
theorem faultAt_iff_below (alike : state.kind = expression.kind) :
    FaultAt state expression place error ↔
      FaultBelow 0 state.parts expression.parts place error := by
  cases place with
  | nil => exact faultAt_nil.trans (iff_of_false (fun fault => fault.1 alike) id)
  | cons number place => exact faultAt_cons alike

theorem not_faultBelow_nil : ¬ FaultBelow index [] filters place error := by
  cases place with
  | nil => exact id
  | cons number place =>
    rintro (⟨_, _, inside, _⟩ | ⟨_, _, inside, _⟩)
    · cases inside
    · cases inside

theorem faultBelow_zero :
    FaultBelow index (child :: children) (filter :: others) (0 :: place) error ↔
      FaultAt child filter place error := by
  simp [FaultBelow]

theorem faultBelow_succ :
    FaultBelow index (child :: children) (filter :: others) ((number + 1) :: place) error ↔
      FaultBelow (index + 1) children others (number :: place) error := by
  simp [FaultBelow, Nat.add_assoc, Nat.add_comm 1]

theorem faultBelow_unmatched : FaultBelow index (child :: children) [] place error ↔
    place = [0] ∧ error = .missingChildSchema index := by
  cases place with
  | nil => exact iff_of_false id nofun
  | cons number place =>
    simp only [FaultBelow, List.getElem?_nil, reduceCtorEq, false_and, and_false, exists_false,
      false_or, List.length_nil, List.cons.injEq]
    constructor
    · rintro ⟨rfl, rfl, -, rfl⟩
      exact ⟨⟨rfl, rfl⟩, rfl⟩
    · rintro ⟨⟨rfl, rfl⟩, rfl⟩
      exact ⟨rfl, rfl, Nat.zero_lt_succ _, rfl⟩

/-- A place has one fault at most. -/
theorem FaultAt.unique (fault : FaultAt state expression place error)
    (fault' : FaultAt state expression place other) : error = other := by
  have absent {parent : List Nat} {inner : FilterExpr}
      (there : expression.at? parent = some inner) :
      expression.at? (parent ++ [inner.parts.length]) = none := by
    rw [FilterExpr.at?_snoc, there, Option.bind_some, List.getElem?_length]
  cases fault with
  | kind here there differ =>
    cases fault' with
    | kind here' there' _ =>
      cases here.symm.trans here'
      cases there.symm.trans there'
      rfl
    | overfull _ there' _ _ last =>
      subst last
      cases there.symm.trans (absent there')
  | overfull here there alike more last =>
    subst last
    cases fault' with
    | kind _ there' _ => cases there'.symm.trans (absent there)
    | overfull here' there' _ _ last =>
      obtain ⟨rfl, _⟩ := List.append_inj' last rfl
      cases there.symm.trans there'
      rfl

end

/-- The error is that of the fault at the first place. -/
def FirstOf (faults : List Nat → ViewError → Prop) (error : ViewError) : Prop :=
  ∃ place, faults place error ∧ ∀ earlier other, faults earlier other → ¬ earlier < place

/-- There is a result where there are no faults, and otherwise the error of the first one. -/
def Reports {α : Type} (faults : List Nat → ViewError → Prop) : Except ViewError α → Prop
  | .ok _ => ∀ place error, ¬ faults place error
  | .error error => FirstOf faults error

section

variable {state child : FormState} {expression filter : FilterExpr} {rest : List FormState}
  {others : List FilterExpr} {index : Nat} {faults : List Nat → ViewError → Prop}
  {error other : ViewError}

/-- A difference in kind comes before all that is below. -/
theorem reports_mismatch (differ : state.kind ≠ expression.kind) :
    Reports (FaultAt state expression)
      (.error (.schemaMismatch state.kind expression.kind) : Except ViewError Unit) :=
  ⟨[], faultAt_nil.mpr ⟨differ, rfl⟩, fun _ _ _ => List.not_lt_nil _⟩

/-- The faults of the first child, with all that is below it, come before those of the others. -/
theorem Reports.cons {here : Except ViewError Unit} {there : Except ViewError (List Unit)}
    (first : Reports (FaultAt child filter) here)
    (later : Reports (FaultBelow (index + 1) rest others) there) :
    Reports (FaultBelow index (child :: rest) (filter :: others)) do
      let checked ← here
      let results ← there
      return checked :: results := by
  cases here with
  | error error =>
    obtain ⟨place, fault, least⟩ := first
    refine ⟨0 :: place, faultBelow_zero.mpr fault, ?_⟩
    rintro (_ | ⟨_ | number, earlier⟩) other fault before
    · exact fault
    · rcases List.cons_lt_cons_iff.mp before with before | ⟨_, before⟩
      · exact Nat.lt_irrefl 0 before
      · exact least earlier other (faultBelow_zero.mp fault) before
    · rcases List.cons_lt_cons_iff.mp before with before | ⟨same, _⟩
      · exact Nat.not_lt_zero _ before
      · cases same
  | ok checked =>
    cases there with
    | error error =>
      obtain ⟨_ | ⟨number, place⟩, fault, least⟩ := later
      · exact fault.elim
      refine ⟨(number + 1) :: place, faultBelow_succ.mpr fault, ?_⟩
      rintro (_ | ⟨_ | number', earlier⟩) other fault before
      · exact fault
      · exact first earlier other (faultBelow_zero.mp fault)
      · apply least (number' :: earlier) other (faultBelow_succ.mp fault)
        rcases List.cons_lt_cons_iff.mp before with before | ⟨same, before⟩
        · exact List.cons_lt_cons_iff.mpr (.inl (Nat.lt_of_succ_lt_succ before))
        · exact List.cons_lt_cons_iff.mpr (.inr ⟨Nat.succ.inj same, before⟩)
    | ok results =>
      rintro (_ | ⟨_ | number, place⟩) error fault
      · exact fault
      · exact first place error (faultBelow_zero.mp fault)
      · exact later (number :: place) error (faultBelow_succ.mp fault)

/-- Where the kinds agree, a node reports what its children report. -/
theorem Reports.parent {α : Type} {children : Except ViewError α}
    {next : α → Except ViewError Unit} (alike : state.kind = expression.kind)
    (reports : Reports (FaultBelow 0 state.parts expression.parts) children)
    (complete : ∀ results, next results = .ok ()) :
    Reports (FaultAt state expression) (children >>= next) := by
  cases children with
  | error error =>
    obtain ⟨place, fault, least⟩ := reports
    exact ⟨place, (faultAt_iff_below alike).mpr fault, fun earlier other before =>
      least earlier other ((faultAt_iff_below alike).mp before)⟩
  | ok results =>
    have done : (Except.ok results >>= next) = .ok () := complete results
    rw [done]
    exact fun place error fault => reports place error ((faultAt_iff_below alike).mp fault)

end

mutual

/-- Checking the shape of a state reports the first of its faults. -/
theorem checkShape_reports : ∀ (state : FormState) (expression : FilterExpr),
    Reports (FaultAt state expression) (state.checkShape expression)
  | .leaf value, expression => by
    cases expression with
    | leaf contents => exact fun place error fault =>
        not_faultBelow_nil ((faultAt_iff_below rfl).mp fault)
    | and | or | not => exact reports_mismatch nofun
  | .and children, expression => by
    cases expression with
    | and filters => exact (foldChildren_reports children filters 0).parent rfl fun _ => rfl
    | leaf | or | not => exact reports_mismatch nofun
  | .or children, expression => by
    cases expression with
    | or filters => exact (foldChildren_reports children filters 0).parent rfl fun _ => rfl
    | leaf | and | not => exact reports_mismatch nofun
  | .not child, expression => by
    cases expression with
    | not filter =>
      have alone : child.not.checkShape filter.not = (do
          let checked ← child.checkShape filter
          let later ← foldChildren shapeVisitor 1 [] []
          return checked :: later) >>= fun _ => .ok () := by
        change (child.checkShape filter >>= fun _ => .ok ()) = _
        cases child.checkShape filter <;> rfl
      have later : Reports (FaultBelow 1 [] []) (foldChildren shapeVisitor 1 [] []) :=
        fun _ _ => not_faultBelow_nil
      rw [alone]
      exact ((checkShape_reports child filter).cons later).parent rfl fun _ => rfl
    | leaf | and | or => exact reports_mismatch nofun
termination_by structural state => state

theorem foldChildren_reports : ∀ (children : List FormState) (filters : List FilterExpr)
    (index : Nat), Reports (FaultBelow index children filters)
      (foldChildren shapeVisitor index children filters)
  | [], filters, _ => fun _ _ => not_faultBelow_nil
  | child :: rest, [], index => by
    refine ⟨[0], faultBelow_unmatched.mpr ⟨rfl, rfl⟩, fun earlier other fault before => ?_⟩
    obtain ⟨rfl, _⟩ := faultBelow_unmatched.mp fault
    exact lt_irrefl _ before
  | child :: rest, filter :: others, index =>
    (checkShape_reports child filter).cons (foldChildren_reports rest others (index + 1))

end

section

variable {state : FormState} {expression : FilterExpr} {error other : ViewError}

/-- There is only one first fault. -/
theorem FirstOf.unique (first : FirstOf (FaultAt state expression) error)
    (first' : FirstOf (FaultAt state expression) other) : error = other := by
  obtain ⟨place, fault, least⟩ := first
  obtain ⟨place', fault', least'⟩ := first'
  obtain before | rfl | before := lt_trichotomy place place'
  · exact absurd before (least' place error fault)
  · exact fault.unique fault'
  · exact absurd before (least place' other fault')

theorem checkShape_eq_error_iff : state.checkShape expression = .error error ↔
    FirstOf (FaultAt state expression) error := by
  have reports := checkShape_reports state expression
  cases checked : state.checkShape expression with
  | error reported =>
    rw [checked] at reports
    rw [Except.error.injEq]
    exact ⟨fun same => same ▸ reports, fun first => FirstOf.unique reports first⟩
  | ok done =>
    rw [checked] at reports
    exact iff_of_false nofun fun ⟨place, fault, _⟩ => reports place error fault

theorem fits_iff_faultless : state.Fits expression ↔
    ∀ place error, ¬ FaultAt state expression place error := by
  have reports := checkShape_reports state expression
  unfold Fits
  cases checked : state.checkShape expression with
  | error reported =>
    rw [checked] at reports
    obtain ⟨place, fault, _⟩ := reports
    exact iff_of_false nofun fun faultless => faultless place reported fault
  | ok done =>
    rw [checked] at reports
    exact iff_of_true rfl reports

/-- A state is in shape exactly if it has no more nodes than the expression, place by place, and
they are of the same kinds. -/
theorem fits_iff_covered : state.Fits expression ↔ state.Covered expression := by
  rw [fits_iff_faultless]
  constructor
  · intro faultless
    have agree {place : List Nat} {node : FormState} {inner : FilterExpr}
        (here : state.at? place = some node) (there : expression.at? place = some inner) :
        node.kind = inner.kind ∧ node.parts.length ≤ inner.parts.length := by
      have alike : node.kind = inner.kind := by
        by_contra differ
        exact faultless place _ (.kind here there differ)
      refine ⟨alike, Nat.le_of_not_lt fun more => ?_⟩
      exact faultless _ _ (.overfull here there alike more rfl)
    intro place node here
    induction place using List.reverseRecOn generalizing node with
    | nil => exact ⟨expression, rfl, agree here rfl⟩
    | append_singleton place number ih =>
      obtain ⟨parent, above, inside⟩ :=
        Option.bind_eq_some_iff.mp ((at?_snoc ..).symm.trans here)
      obtain ⟨outer, above', _, enough⟩ := ih parent above
      obtain ⟨within, _⟩ := List.getElem?_eq_some_iff.mp inside
      have offered := List.getElem?_eq_getElem (Nat.lt_of_lt_of_le within enough)
      have there := (FilterExpr.at?_snoc expression place number).trans
        ((congrArg (Option.bind · _) above').trans offered)
      exact ⟨_, there, agree here there⟩
  · intro covered place error fault
    cases fault with
    | kind here there differ =>
      obtain ⟨_, there', alike, _⟩ := covered _ _ here
      cases there.symm.trans there'
      exact differ alike
    | overfull here there _ more _ =>
      obtain ⟨_, there', _, enough⟩ := covered _ _ here
      cases there.symm.trans there'
      exact Nat.not_lt_of_le enough more

/-- An overfull node is reported after the children that have an expression, with all that is below
them. -/
theorem FirstOf.elders_fit {index : Nat}
    (first : FirstOf (FaultAt state expression) (.missingChildSchema index)) :
    ∃ place node inner, state.at? place = some node ∧ expression.at? place = some inner ∧
      node.kind = inner.kind ∧ inner.parts.length = index ∧ index < node.parts.length ∧
      ∀ (number : Nat) (child : FormState) (filter : FilterExpr),
        node.parts[number]? = some child → inner.parts[number]? = some filter →
          child.Fits filter := by
  obtain ⟨_, fault, least⟩ := first
  cases fault with
  | @overfull place _ node inner here there alike more last =>
    subst last
    refine ⟨place, node, inner, here, there, alike, rfl, more, ?_⟩
    intro number child filter inside offered
    rw [fits_iff_faultless]
    intro rest other fault
    obtain ⟨elder, _⟩ := List.getElem?_eq_some_iff.mp offered
    have below : state.at? (place ++ [number]) = some child := by
      rw [at?_snoc, here, Option.bind_some, inside]
    have below' : expression.at? (place ++ [number]) = some filter := by
      rw [FilterExpr.at?_snoc, there, Option.bind_some, offered]
    apply least _ other (fault.lift below below')
    rw [List.append_assoc]
    exact List.append_left_lt (List.cons_lt_cons_iff.mpr (.inl elder))

/-- The shape is right exactly if every node of the state has one of its kind at its place in the
expression, with at least as many children. Otherwise the error is that of the first fault from left
to right: a node of another kind comes before all that is below it, and a child without an
expression, reported by its number, after its elder siblings, which are all in shape. -/
theorem checkShape_firstFault (state : FormState) (expression : FilterExpr) :
    (state.checkShape expression = .ok () ↔ state.Covered expression) ∧
    (∀ error, state.checkShape expression = .error error ↔
      ∃ place, FaultAt state expression place error ∧
        ∀ earlier other, FaultAt state expression earlier other → ¬ earlier < place) ∧
    ∀ index, state.checkShape expression = .error (.missingChildSchema index) →
      ∃ place node inner, state.at? place = some node ∧ expression.at? place = some inner ∧
        node.kind = inner.kind ∧ inner.parts.length = index ∧ index < node.parts.length ∧
        ∀ (number : Nat) (child : FormState) (filter : FilterExpr),
          node.parts[number]? = some child → inner.parts[number]? = some filter →
            child.checkShape filter = .ok () := by
  refine ⟨fits_iff_covered, fun error => checkShape_eq_error_iff, fun index failed => ?_⟩
  exact (checkShape_eq_error_iff.mp failed).elders_fit

/-- A difference far down on the left comes before a child too many at the root. -/
example : (and [and [], not (or []), and []]).checkShape (.and [.and [], .not (.and [])]) =
    .error (.schemaMismatch .or .and) :=
  rfl

end

end FormState

end GridQuery
