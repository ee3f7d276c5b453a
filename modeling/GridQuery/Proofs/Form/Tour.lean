import GridQuery.Proofs.Form.Omission

/-!
The tour of a state: its nodes are entered from left to right, each before its children, and left
after them. The places that are left give the nodes in postorder, each of them once; where the state
mirrors an expression they lead to its leaves from left to right.
-/

namespace GridQuery

/-- The first item from a place on, and the others. -/
theorem drop_eq_cons {α : Type} {parts rest : List α} {index : Nat} {first : α}
    (onward : parts.drop index = first :: rest) :
    parts[index]? = some first ∧ parts.drop (index + 1) = rest := by
  constructor
  · have head := congrArg (fun list => list[0]?) onward
    simpa using head
  · rw [← List.drop_drop, onward]
    rfl

/-- A node is reached, or it is done with. -/
inductive Moment where
  | enter (place : List Nat)
  | leave (place : List Nat)

namespace Moment

def left? : Moment → Option (List Nat)
  | .enter _ => none
  | .leave place => some place

/-- The places that are left, in order. -/
def lefts (moments : List Moment) : List (List Nat) :=
  moments.filterMap left?

variable {place : List Nat} {moments later : List Moment}

theorem lefts_leave : lefts (.leave place :: later) = place :: lefts later :=
  rfl

theorem lefts_append : lefts (moments ++ later) = lefts moments ++ lefts later :=
  List.filterMap_append

theorem mem_lefts : place ∈ lefts moments ↔ .leave place ∈ moments := by
  rw [lefts, List.mem_filterMap]
  constructor
  · rintro ⟨moment, member, left⟩
    cases moment with
    | enter => cases left
    | leave => cases left; exact member
  · exact fun member => ⟨_, member, rfl⟩

theorem lefts_around : lefts (.enter place :: (moments ++ [.leave place])) =
    lefts moments ++ [place] :=
  lefts_append

end Moment

open Moment (lefts)

namespace FilterExpr

/-- The leaf at a place, if there is one. -/
def leafAt? (expression : FilterExpr) (place : List Nat) : Option FilterLeaf :=
  (expression.at? place).bind leaf?

theorem leaves_eq (expression : FilterExpr) :
    expression.leaves = leavesOfList expression.parts ++ expression.leaf?.toList := by
  cases expression with
  | leaf => rfl
  | and | or => exact (List.append_nil _).symm
  | not filter =>
    change filter.leaves = filter.leaves ++ [] ++ []
    rw [List.append_nil, List.append_nil]

end FilterExpr

namespace FormState

mutual

/-- The moments of going through the state that stands at a place. -/
def tourFrom (place : List Nat) : FormState → List Moment
  | .leaf _ => [.enter place, .leave place]
  | .and children => .enter place :: (tourOfList place 0 children ++ [.leave place])
  | .or children => .enter place :: (tourOfList place 0 children ++ [.leave place])
  | .not child => .enter place :: (tourFrom (place ++ [0]) child ++ [.leave place])

/-- The moments of going through the children of a place, from child `index` on. -/
def tourOfList (parent : List Nat) (index : Nat) : List FormState → List Moment
  | [] => []
  | child :: rest => tourFrom (parent ++ [index]) child ++ tourOfList parent (index + 1) rest

end

def tour (state : FormState) : List Moment :=
  state.tourFrom []

/-- The places of the nodes from left to right, each after those below it. -/
def postorder (state : FormState) : List (List Nat) :=
  lefts state.tour

theorem tourFrom_eq (state : FormState) (place : List Nat) : state.tourFrom place =
    .enter place :: (tourOfList place 0 state.parts ++ [.leave place]) := by
  cases state with
  | leaf | and | or => rfl
  | not child => rw [tourFrom, parts, tourOfList, tourOfList, List.append_nil]

theorem tourFrom_eq_cons (place : List Nat) (state : FormState) :
    ∃ later, state.tourFrom place = .enter place :: later :=
  ⟨_, state.tourFrom_eq place⟩

mutual

/-- What passes from the children to their parent holds of all states. -/
theorem parts_induction {P : FormState → Prop}
    (step : ∀ state, (∀ part ∈ state.parts, P part) → P state) : ∀ state, P state
  | .leaf value => step (.leaf value) nofun
  | .and children => step (.and children) (parts_induction_list step children)
  | .or children => step (.or children) (parts_induction_list step children)
  | .not child => step child.not (List.forall_mem_singleton.mpr (parts_induction step child))
termination_by structural state => state

theorem parts_induction_list {P : FormState → Prop}
    (step : ∀ state, (∀ part ∈ state.parts, P part) → P state) :
    ∀ children : List FormState, ∀ child ∈ children, P child
  | [] => nofun
  | child :: rest =>
    List.forall_mem_cons.mpr ⟨parts_induction step child, parts_induction_list step rest⟩

end

theorem mem_tourOfList {moment : Moment} {parent : List Nat} {index : Nat}
    {children : List FormState} : moment ∈ tourOfList parent index children ↔
      ∃ (number : Nat) (child : FormState), children[number]? = some child ∧
        moment ∈ child.tourFrom (parent ++ [index + number]) := by
  induction children generalizing index with
  | nil => exact iff_of_false nofun nofun
  | cons child rest ih =>
    rw [tourOfList, List.mem_append, ih]
    constructor
    · rintro (first | ⟨number, other, listed, later⟩)
      · exact ⟨0, child, rfl, first⟩
      · refine ⟨number + 1, other, listed, ?_⟩
        rwa [Nat.add_comm number, ← Nat.add_assoc]
    · rintro ⟨_ | number, other, listed, inside⟩
      · cases listed
        exact .inl inside
      · refine .inr ⟨number, other, listed, ?_⟩
        rwa [Nat.add_assoc, Nat.add_comm 1]

section

variable {state : FormState} {place below parent : List Nat}

/-- All that is left during the tour of a state lies below its place. -/
theorem below_of_leave (member : .leave below ∈ state.tourFrom place) : place <+: below := by
  induction state using parts_induction generalizing place with
  | step state ih =>
    rw [tourFrom_eq, List.mem_cons, List.mem_append, List.mem_singleton] at member
    rcases member with entered | inside | left
    · cases entered
    · obtain ⟨number, child, listed, inside⟩ := mem_tourOfList.mp inside
      have beneath := ih child (List.mem_of_getElem? listed) inside
      exact (List.prefix_append ..).trans beneath
    · cases left
      exact List.prefix_rfl

theorem exists_number_of_leave {children : List FormState} {index : Nat}
    (member : .leave below ∈ tourOfList parent index children) :
    ∃ number, index ≤ number ∧ parent ++ [number] <+: below := by
  obtain ⟨number, child, _, inside⟩ := mem_tourOfList.mp member
  exact ⟨index + number, Nat.le_add_right index number, below_of_leave inside⟩

/-- No place lies below two children of one node. -/
theorem eq_of_below {number other : Nat} (beneath : parent ++ [number] <+: below)
    (beneath' : parent ++ [other] <+: below) : number = other := by
  have alike : parent ++ [number] = parent ++ [other] := by
    apply (List.prefix_of_prefix_length_le beneath beneath' ?_).eq_of_length
    · simp
    · simp
  simpa using alike

theorem nodup_tourOfList {children : List FormState}
    (each : ∀ child ∈ children, ∀ place, (lefts (child.tourFrom place)).Nodup) (index : Nat) :
    (lefts (tourOfList parent index children)).Nodup := by
  induction children generalizing index with
  | nil => exact List.nodup_nil
  | cons child rest ih =>
    obtain ⟨first, others⟩ := List.forall_mem_cons.mp each
    rw [tourOfList, Moment.lefts_append, List.nodup_append]
    refine ⟨first _, ih others (index + 1), ?_⟩
    rintro below inside _ later rfl
    obtain ⟨number, after, beneath⟩ := exists_number_of_leave (Moment.mem_lefts.mp later)
    have same := eq_of_below (below_of_leave (Moment.mem_lefts.mp inside)) beneath
    omega

theorem nodup_tourFrom (state : FormState) (place : List Nat) :
    (lefts (state.tourFrom place)).Nodup := by
  induction state using parts_induction generalizing place with
  | step state ih =>
    rw [tourFrom_eq, Moment.lefts_around, List.nodup_append]
    refine ⟨nodup_tourOfList ih 0, List.nodup_cons.mpr ⟨nofun, List.nodup_nil⟩, ?_⟩
    -- Its own place is too short to be that of a node below.
    rintro below inside other alone rfl
    obtain ⟨number, _, beneath⟩ := exists_number_of_leave (Moment.mem_lefts.mp inside)
    rw [List.mem_singleton.mp alone] at beneath
    have shorter := beneath.length_le
    rw [List.length_append, List.length_singleton] at shorter
    omega

/-- No node is left twice. -/
theorem nodup_postorder (state : FormState) : state.postorder.Nodup :=
  nodup_tourFrom state []

/-- Every node is entered. -/
theorem enter_mem_tourFrom {node : FormState} {rest : List Nat}
    (here : state.at? rest = some node) : .enter (place ++ rest) ∈ state.tourFrom place := by
  induction rest generalizing state place with
  | nil =>
    rw [tourFrom_eq, List.append_nil]
    exact List.mem_cons_self
  | cons number rest ih =>
    obtain ⟨child, inside, here⟩ := at?_cons.mp here
    have entered : .enter (place ++ [number] ++ rest) ∈ child.tourFrom (place ++ [number]) :=
      ih here
    rw [List.append_assoc] at entered
    rw [tourFrom_eq]
    refine List.mem_cons_of_mem _ (List.mem_append_left _ (mem_tourOfList.mpr ?_))
    exact ⟨number, child, inside, by rwa [Nat.zero_add]⟩

end

section

variable {state : FormState} {expression inner : FilterExpr} {filters : List FilterExpr}
  {place parent : List Nat} {index : Nat}

theorem leaves_tourOfList {children : List FormState}
    (each : ∀ child ∈ children, ∀ {inner place}, child.Mirrors inner →
      expression.at? place = some inner →
        (lefts (child.tourFrom place)).filterMap expression.leafAt? = inner.leaves)
    (mirror : AllMirror children filters) (there : expression.at? parent = some inner)
    (onward : inner.parts.drop index = filters) :
    (lefts (tourOfList parent index children)).filterMap expression.leafAt? =
      FilterExpr.leavesOfList filters := by
  induction children generalizing index filters with
  | nil =>
    cases filters with
    | nil => rfl
    | cons => exact mirror.elim
  | cons child rest ih =>
    cases filters with
    | nil => exact mirror.elim
    | cons filter others =>
      obtain ⟨first, later⟩ := List.forall_mem_cons.mp each
      obtain ⟨listed, onward⟩ := drop_eq_cons onward
      have offered : expression.at? (parent ++ [index]) = some filter := by
        rw [FilterExpr.at?_snoc, there]
        exact listed
      rw [tourOfList, Moment.lefts_append, List.filterMap_append, FilterExpr.leavesOfList,
        first mirror.1 offered, ih later mirror.2 onward]

/-- Where a state mirrors an expression, its tour leads to the leaves from left to right. -/
theorem Mirrors.leaves_tour (mirrors : state.Mirrors inner)
    (there : expression.at? place = some inner) :
    (lefts (state.tourFrom place)).filterMap expression.leafAt? = inner.leaves := by
  induction state using parts_induction generalizing place inner with
  | step state ih =>
    have own : [place].filterMap expression.leafAt? = inner.leaf?.toList := by
      simp only [List.filterMap_cons, FilterExpr.leafAt?, there, Option.bind_some]
      cases inner.leaf? <;> rfl
    rw [tourFrom_eq, Moment.lefts_around, List.filterMap_append, own, FilterExpr.leaves_eq,
      leaves_tourOfList ih mirrors.parts there rfl]

end

end FormState

end GridQuery
