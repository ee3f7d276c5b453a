import GridQuery.Proofs.Form.FirstFault
import GridQuery.Proofs.Form.Merging

/-!
States with fewer children than their expressions. The state decides what is folded, so loading
takes them as they are: a loaded state mirrors its expression exactly if nothing was left out of
what it was loaded from.
-/

namespace GridQuery

namespace FormState

/-- Somewhere the state has fewer children than the expression. -/
def Omits (state : FormState) (expression : FilterExpr) : Prop :=
  ∃ place node inner, state.at? place = some node ∧ expression.at? place = some inner ∧
    node.parts.length < inner.parts.length

variable {state child : FormState} {expression filter : FilterExpr}
  {children results : List FormState} {filters : List FilterExpr} {number : Nat}

theorem omits_of_fewer (fewer : state.parts.length < expression.parts.length) :
    state.Omits expression :=
  ⟨[], state, expression, rfl, rfl, fewer⟩

theorem Omits.of_child (omits : child.Omits filter) (inside : state.parts[number]? = some child)
    (offered : expression.parts[number]? = some filter) : state.Omits expression := by
  obtain ⟨place, node, inner, here, there, fewer⟩ := omits
  exact ⟨number :: place, node, inner, at?_cons.mpr ⟨child, inside, here⟩,
    FilterExpr.at?_cons.mpr ⟨filter, offered, there⟩, fewer⟩

theorem Mirrors.parts (mirrors : state.Mirrors expression) :
    AllMirror state.parts expression.parts := by
  cases state with
  | leaf value =>
    cases expression with
    | leaf contents => trivial
    | and | or | not => exact mirrors.elim
  | and children =>
    cases expression with
    | and filters => exact mirrors
    | leaf | or | not => exact mirrors.elim
  | or children =>
    cases expression with
    | or filters => exact mirrors
    | leaf | and | not => exact mirrors.elim
  | not child =>
    cases expression with
    | not filter => exact ⟨mirrors, trivial⟩
    | leaf | and | or => exact mirrors.elim

theorem AllMirror.length_eq : ∀ {children : List FormState} {filters : List FilterExpr},
    AllMirror children filters → children.length = filters.length
  | [], [], _ => rfl
  | _ :: _, _ :: _, mirror => congrArg Nat.succ (AllMirror.length_eq mirror.2)

theorem AllMirror.nth : ∀ {children : List FormState} {filters : List FilterExpr} {number : Nat},
    AllMirror children filters → children[number]? = some child →
      filters[number]? = some filter → child.Mirrors filter
  | _ :: _, _ :: _, 0, mirror, rfl, rfl => mirror.1
  | _ :: _, _ :: _, _ + 1, mirror, inside, offered => AllMirror.nth mirror.2 inside offered

theorem Mirrors.not_omits (mirrors : state.Mirrors expression) : ¬ state.Omits expression := by
  rintro ⟨place, node, inner, here, there, fewer⟩
  induction place generalizing state expression with
  | nil =>
    cases here
    cases there
    exact Nat.ne_of_lt fewer mirrors.parts.length_eq
  | cons number place ih =>
    obtain ⟨child, inside, here⟩ := at?_cons.mp here
    obtain ⟨filter, offered, there⟩ := FilterExpr.at?_cons.mp there
    exact ih (mirrors.parts.nth inside offered) here there

theorem allMirror_of_folded {units : List Unit}
    (folded : FoldedChildren (fun child filter _ => ¬ child.Omits filter → child.Mirrors filter)
      children filters units) (enough : filters.length ≤ children.length)
    (complete : ∀ (number : Nat) (child : FormState) (filter : FilterExpr),
      children[number]? = some child → filters[number]? = some filter → ¬ child.Omits filter) :
    AllMirror children filters := by
  induction folded with
  | nil filters =>
    cases List.eq_nil_of_length_eq_zero (Nat.le_zero.mp enough)
    trivial
  | cons first later ih =>
    exact ⟨first (complete 0 _ _ rfl rfl), ih (Nat.le_of_succ_le_succ enough)
      fun number child filter => complete (number + 1) child filter⟩

/-- Where nothing is left out, checking the shape finds that the state mirrors the expression. -/
theorem shapeVisitor_mirrors : shapeVisitor.Establishes fun state expression _ =>
    ¬ state.Omits expression → state.Mirrors expression where
  leaf _ _ _ _ _ := trivial
  and filters children _ _ folded _ complete :=
    allMirror_of_folded folded (Nat.le_of_not_lt fun fewer => complete (omits_of_fewer fewer))
      fun _ _ _ inside offered omits => complete (omits.of_child inside offered)
  or filters children _ _ folded _ complete :=
    allMirror_of_folded folded (Nat.le_of_not_lt fun fewer => complete (omits_of_fewer fewer))
      fun _ _ _ inside offered omits => complete (omits.of_child inside offered)
  not filter child _ _ mirrors _ complete := by
    have only : child.not.parts[0]? = some child := rfl
    have inner : child.Mirrors filter := mirrors fun omits => complete (omits.of_child only rfl)
    exact inner

/-- A state in shape mirrors its expression exactly if nothing is left out of it. -/
theorem mirrors_iff : state.Mirrors expression ↔
    state.Fits expression ∧ ¬ state.Omits expression := by
  constructor
  · exact fun mirrors => ⟨mirrors.fits, mirrors.not_omits⟩
  · rintro ⟨fits, complete⟩
    exact fold_belongs shapeVisitor_mirrors state expression () fits complete

theorem allMirror_iff_of_folded (folded : FoldedChildren (fun child filter result =>
      result.Mirrors filter ↔ child.Mirrors filter) children filters results) :
    AllMirror results filters ↔ AllMirror children filters := by
  induction folded with
  | nil filters => rfl
  | cons first later ih => exact and_congr first ih

/-- Changing leaves leaves a state as far from its expression as it was. -/
theorem Follows.mirrors_iff {rule : FilterLeaf → Json → Json → Prop} {kept : FormState}
    (follows : state.Follows rule expression kept) :
    kept.Mirrors expression ↔ state.Mirrors expression := by
  refine follows.induct ?leaf ?and ?or ?not
  case leaf => exact fun _ _ _ _ => Iff.rfl
  case and => exact fun _ _ _ each => allMirror_iff_of_folded each
  case or => exact fun _ _ _ each => allMirror_iff_of_folded each
  case not => exact fun _ _ _ inner => inner

end FormState

namespace FormStates

/-- The id stays. The state of a known filter has no nodes but those of the expression, and mirrors
it exactly if nothing is left out of the state that it comes from. -/
def AdmittedAs (schema : FilterSchema) (entry result : String × FormState) : Prop :=
  result.1 = entry.1 ∧ ∀ filter, schema.filter? entry.1 = some filter →
    result.2.Covered filter.expression ∧
      (result.2.Mirrors filter.expression ↔ ¬ entry.2.Omits filter.expression)

variable {schema : FilterSchema} {rule : FilterLeaf → Json → Json → Prop}

theorem EntryFollows.admittedAs {entry result : String × FormState}
    (follows : EntryFollows schema rule entry result) : AdmittedAs schema entry result := by
  refine ⟨follows.1, fun filter known => ?_⟩
  obtain ⟨kept, changed, rfl⟩ := (entryFollows_known known).mp follows
  refine ⟨FormState.fits_iff_covered.mp changed.kept_fits, ?_⟩
  rw [changed.mirrors_iff, FormState.mirrors_iff, and_iff_right changed.fits]

/-- Loading admits no state with a node of another kind or with more children than the expression
has. States with fewer children it admits as they are: what is loaded mirrors the expression exactly
if nothing is left out of what was saved. -/
theorem load_admits (schema : FilterSchema) (document : Json) (loaded : FormStates)
    (read : load schema document = .ok loaded) :
    ∃ saved, ofJson document = .ok saved ∧
      List.Forall₂ (AdmittedAs schema) saved loaded := by
  obtain ⟨saved, found, normal⟩ := bind_eq_ok.mp read
  refine ⟨saved, mapError_eq_ok.mp found, ?_⟩
  exact List.Forall₂.imp (fun _ _ => EntryFollows.admittedAs) (normalize_eq_ok.mp normal)

/-- A window that was saved before its filter had a second part. -/
def olderWindow : FormStates :=
  [("window", .and [.leaf (.string "2024-06-01")])]

def olderWindowLoaded : FormStates :=
  [("window", .and [.leaf (.string "2024-06-01T00:00:00.000Z")])]

theorem olderWindow_admitted :
    load appointmentSchema olderWindow.toJson = .ok olderWindowLoaded ∧
      ∃ saved, ofJson olderWindow.toJson = .ok saved ∧
        List.Forall₂ (AdmittedAs appointmentSchema) saved olderWindowLoaded :=
  ⟨rfl, load_admits appointmentSchema olderWindow.toJson olderWindowLoaded rfl⟩

/-- It is loaded without the second part. -/
theorem olderWindow_partial :
    (appointmentSchema.filter? "window").map Filter.expression = some windowExpression ∧
      load appointmentSchema olderWindow.toJson = .ok olderWindowLoaded ∧
      Named.find? "window" olderWindowLoaded =
        some (.and [.leaf (.string "2024-06-01T00:00:00.000Z")]) ∧
      ¬ (FormState.and [.leaf (.string "2024-06-01T00:00:00.000Z")]).Mirrors windowExpression :=
  ⟨rfl, rfl, rfl, fun mirrors => mirrors.2⟩

end FormStates

end GridQuery
