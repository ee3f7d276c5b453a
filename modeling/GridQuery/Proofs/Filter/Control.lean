import GridQuery.Filter.Control
import GridQuery.Proofs.Json.Reading

/-!
Choices and input controls are read back from what they are written as.
-/

namespace GridQuery

open Read (Settled Steady)

namespace Choice

theorem settled_put {draft next : Draft} {member : String × Json}
    (settled : Settled Read.value (fun value => value) draft.value)
    (step : draft.put member = .ok next) :
    Settled Read.value (fun value => value) next.value := by
  rw [Draft.put] at step
  split_ifs at step
  case neg =>
    cases step
    exact settled
  all_goals
    obtain ⟨filled, made, ⟨⟩⟩ := bind_eq_ok.mp step
    first | exact settled | exact Read.steady_value.fill made

theorem steady : Steady ofJson toJson := by
  intro document choice made
  obtain ⟨members, _, made⟩ := bind_eq_ok.mp made
  obtain ⟨draft, filled, made⟩ := bind_eq_ok.mp made
  obtain ⟨label, _, made⟩ := bind_eq_ok.mp made
  obtain ⟨value, given, made⟩ := bind_eq_ok.mp made
  cases made
  have settled := foldlM_preserves (P := fun draft => Settled _ _ draft.value) filled
    Read.settled_none fun _ _ _ _ => settled_put
  have read : Read.value value = .ok value := settled value (Read.required_eq_ok.mp given)
  refine bind_eq_ok.mpr ⟨_, rfl, bind_eq_ok.mpr ⟨⟨some label, some value⟩,
    foldlM_member rfl (foldlM_member ?_ rfl), rfl⟩⟩
  simp only [Draft.put, read]
  rfl

end Choice

namespace Control

/-- Reads one member, as `ofMembers` does with each. -/
def Draft.take (variant : Variant) (draft : Draft) : String × Json → Read Draft
  | (name, value) =>
    if variant = .operatorChoice ∧ name = "valueControl" then do
      return { draft with operand := ← Read.fill draft.operand (ofJson value) }
    else draft.put variant name value

theorem ofMembers_eq_foldlM (variant : Variant) (draft : Draft) (members : List (String × Json)) :
    ofMembers variant draft members = members.foldlM (Draft.take variant) draft := by
  induction members generalizing draft with
  | nil => rfl
  | cons member rest ih =>
    obtain ⟨name, value⟩ := member
    rw [List.foldlM_cons, ofMembers.eq_def]
    dsimp only [Draft.take]
    split_ifs
    all_goals simp only [bind_assoc, pure_bind, ih]

theorem ofJson_eq_ok {members : List (String × Json)} {control : Control} :
    ofJson (.object members) = .ok control ↔ ∃ tag, Read.tag members = .ok tag ∧
      ∃ variant, Variant.ofTag? tag = some variant ∧
        ∃ draft, members.foldlM (Draft.take variant) {} = .ok draft ∧
          draft.finish variant = .ok control := by
  simp only [ofJson, bind_eq_ok, Read.required_eq_ok, ofMembers_eq_foldlM]

/-- What the slots hold is read again from its written form. -/
structure Draft.Settled (draft : Draft) : Prop where
  initial : ∀ value ∈ draft.initial.join, Read.nullable Read.value value = .ok (some value)
  items : Read.Settled (Read.list Choice.ofJson) (fun items => .array (items.map Choice.toJson))
    draft.items
  operators : Read.Settled (Read.list Choice.ofJson)
    (fun operators => .array (operators.map Choice.toJson)) draft.operators
  operand : Read.Settled ofJson toJson draft.operand
  props : Read.Settled Read.value (fun value => value) draft.props

theorem Draft.settled_empty : Settled {} where
  initial := nofun
  items := nofun
  operators := nofun
  operand := nofun
  props := nofun

theorem Draft.Settled.put {draft next : Draft} (settled : draft.Settled) {variant : Variant}
    {name : String} {value : Json} (step : draft.put variant name value = .ok next) :
    next.Settled := by
  unfold Draft.put at step
  cases variant
  all_goals
    dsimp only at step
    split_ifs at step
  all_goals first
    | cases step
      exact settled
    | obtain ⟨filled, made, ⟨⟩⟩ := bind_eq_ok.mp step
  all_goals first
    | exact { settled with }
    | exact { settled with initial := Read.nullable_value made }
    | exact { settled with items := Choice.steady.list.fill made }
    | exact { settled with operators := Choice.steady.list.fill made }
    | exact { settled with props := Read.steady_value.fill made }

theorem Draft.Settled.take {draft next : Draft} (settled : draft.Settled) {variant : Variant}
    {member : String × Json}
    (again : ∀ control, ofJson member.2 = .ok control → ofJson control.toJson = .ok control)
    (step : draft.take variant member = .ok next) : next.Settled := by
  rw [Draft.take] at step
  split_ifs at step
  · obtain ⟨operand, made, ⟨⟩⟩ := bind_eq_ok.mp step
    exact { settled with operand := Read.settled_fill again made }
  · exact settled.put step

theorem put_initial {variant : Variant} {draft : Draft} {value : Json}
    (empty : draft.initial = none) (read : Read.nullable Read.value value = .ok (some value)) :
    draft.put variant "initialValue" value = .ok { draft with initial := some (some value) } := by
  rw [Draft.put.eq_def, if_pos rfl, read, empty]
  rfl

theorem foldlM_initial {variant : Variant} {draft : Draft} {initial : Option Json}
    {rest : List (String × Json)} {result : Read Draft} (empty : draft.initial = none)
    (read : ∀ value ∈ initial, Read.nullable Read.value value = .ok (some value))
    (later : rest.foldlM (Draft.take variant) { draft with initial := initial.map some } = result) :
    (Json.optional "initialValue" initial ++ rest).foldlM (Draft.take variant) draft = result := by
  cases initial with
  | none =>
    obtain ⟨_⟩ := draft
    cases empty
    exact later
  | some value =>
    refine foldlM_member ?_ later
    rw [Draft.take, if_neg (by simp), put_initial empty (read value rfl)]
    rfl

/-- The two variants that offer a list of items differ in their tag alone. -/
theorem foldlM_items {variant : Variant} {initial : Option Json} {items : List Choice}
    (offers : variant = .dropdown ∨ variant = .multiselect)
    (read : ∀ value ∈ initial, Read.nullable Read.value value = .ok (some value))
    (readItems : Read.list Choice.ofJson (.array (items.map Choice.toJson)) = .ok items)
    (tag : String) :
    (Json.optional "initialValue" initial ++
      [itemsMember "items" items, ("type", .string tag)]).foldlM (Draft.take variant) {} =
        .ok { initial := initial.map some, items := some items } := by
  have taken : Draft.take variant { initial := initial.map some } (itemsMember "items" items) =
      .ok { initial := initial.map some, items := some items } := by
    rcases offers with rfl | rfl <;>
      (simp only [itemsMember, Draft.take, Draft.put, readItems]
       rfl)
  refine foldlM_initial rfl read (foldlM_member taken (foldlM_member ?_ rfl))
  rcases offers with rfl | rfl <;> rfl

theorem Draft.Settled.finish {draft : Draft} (settled : draft.Settled) {variant : Variant}
    {control : Control} (made : draft.finish variant = .ok control) :
    ofJson control.toJson = .ok control := by
  obtain ⟨initial, placeholder, min, max, items, operators, operand, source, component, props⟩ :=
    draft
  have same := join_map_some initial.join
  cases variant with
  | text =>
    cases made
    refine ofJson_eq_ok.mpr ⟨"text", ?_, .text, rfl,
      { initial := initial.join.map some, placeholder := placeholder.join.map some }, ?_, ?_⟩
    · rw [List.append_assoc]
      exact (Read.tag_optional (by decide) _ _).trans (Read.tag_optional (by decide) _ _)
    · rw [List.append_assoc]
      refine foldlM_initial rfl settled.initial ?_
      exact foldlM_optional (fun slot =>
        ({ initial := initial.join.map some, placeholder := slot } : Draft)) (fun _ _ => rfl) rfl
    · simp only [Draft.finish, join_map_some]
      rfl
  | number =>
    cases made
    refine ofJson_eq_ok.mpr ⟨"number", ?_, .number, rfl,
      ⟨initial.join.map some, none, min.join.map some, max.join.map some, none, none, none, none,
        none, none⟩, ?_, ?_⟩
    · simp only [List.append_assoc]
      exact (Read.tag_optional (by decide) _ _).trans <|
        (Read.tag_optional (by decide) _ _).trans <| Read.tag_optional (by decide) _ _
    · simp only [List.append_assoc]
      refine foldlM_initial rfl settled.initial ?_
      refine foldlM_optional (fun slot =>
        ({ initial := initial.join.map some, max := slot } : Draft)) (fun _ _ => by rfl) ?_
      exact foldlM_optional (fun slot =>
        ({ initial := initial.join.map some, min := slot, max := max.join.map some } : Draft))
        (fun _ _ => rfl) rfl
    · simp only [Draft.finish, join_map_some]
      rfl
  | date =>
    cases made
    refine ofJson_eq_ok.mpr ⟨"date", Read.tag_optional (by decide) _ _, .date, rfl,
      { initial := initial.join.map some }, foldlM_initial rfl settled.initial rfl, ?_⟩
    rw [Draft.finish, same]
    rfl
  | dropdown =>
    cases made
    refine ofJson_eq_ok.mpr ⟨"dropdown", Read.tag_optional (by decide) _ _, .dropdown, rfl, _,
      foldlM_items (.inl rfl) settled.initial settled.items.getD _, ?_⟩
    rw [Draft.finish, same]
    rfl
  | multiselect =>
    cases made
    refine ofJson_eq_ok.mpr ⟨"multiselect", Read.tag_optional (by decide) _ _, .multiselect, rfl, _,
      foldlM_items (.inr rfl) settled.initial settled.items.getD _, ?_⟩
    rw [Draft.finish, same]
    rfl
  | operatorChoice =>
    obtain ⟨choices, hasOperators, made⟩ := bind_eq_ok.mp made
    obtain ⟨inner, hasOperand, made⟩ := bind_eq_ok.mp made
    cases made
    have readOperators := settled.operators choices (Read.required_eq_ok.mp hasOperators)
    have readOperand := settled.operand inner (Read.required_eq_ok.mp hasOperand)
    refine ofJson_eq_ok.mpr ⟨"customOperator", Read.tag_optional (by decide) _ _, .operatorChoice,
      rfl, { initial := initial.join.map some, operators := some choices, operand := some inner },
      foldlM_initial rfl settled.initial ?_, ?_⟩
    · have taken : Draft.take .operatorChoice { initial := initial.join.map some }
          (itemsMember "operators" choices) =
            .ok { initial := initial.join.map some, operators := some choices } := by
        simp only [itemsMember, Draft.take, Draft.put, readOperators]
        rfl
      refine foldlM_member taken (foldlM_member rfl (foldlM_member ?_ rfl))
      simp only [Draft.take, readOperand]
      rfl
    · rw [Draft.finish, same]
      rfl
  | autocomplete =>
    cases made
    refine ofJson_eq_ok.mpr ⟨"autocomplete", ?_, .autocomplete, rfl,
      { initial := initial.join.map some, source := source.join.map some }, ?_, ?_⟩
    · rw [List.append_assoc]
      exact (Read.tag_optional (by decide) _ _).trans (Read.tag_optional (by decide) _ _)
    · rw [List.append_assoc]
      refine foldlM_initial rfl settled.initial ?_
      exact foldlM_optional (fun slot =>
        ({ initial := initial.join.map some, source := slot } : Draft)) (fun _ _ => rfl) rfl
    · simp only [Draft.finish, join_map_some]
      rfl
  | custom =>
    obtain ⟨name, hasComponent, made⟩ := bind_eq_ok.mp made
    cases made
    have readProps : Read.value (props.getD .null) = .ok (props.getD .null) := by
      cases props with
      | none => rfl
      | some value => exact settled.props value rfl
    refine ofJson_eq_ok.mpr ⟨"custom", Read.tag_optional (by decide) _ _, .custom, rfl,
      ⟨initial.join.map some, none, none, none, none, none, none, none, some name,
        some (props.getD .null)⟩,
      foldlM_member rfl (foldlM_initial rfl settled.initial (foldlM_member ?_ rfl)), ?_⟩
    · simp only [Draft.take, Draft.put, readProps]
      rfl
    · rw [Draft.finish, same]
      rfl

mutual

theorem rereads : ∀ {document : Json} {control : Control}, ofJson document = .ok control →
    ofJson control.toJson = .ok control
  | .object members, _, made => by
    obtain ⟨_, _, variant, _, draft, filled, made⟩ := ofJson_eq_ok.mp made
    have settled : draft.Settled := foldlM_preserves filled Draft.settled_empty
      fun member inside _ _ settled => settled.take (rereads_members members member inside)
    exact settled.finish made

theorem rereads_members : ∀ (members : List (String × Json)), ∀ member ∈ members, ∀ control,
    ofJson member.2 = .ok control → ofJson control.toJson = .ok control
  | [] => nofun
  | _ :: rest => List.forall_mem_cons.mpr ⟨fun _ => rereads, rereads_members rest⟩

end

theorem steady : Steady ofJson toJson :=
  fun _ _ => rereads

end Control

end GridQuery
