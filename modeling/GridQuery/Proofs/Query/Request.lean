import GridQuery.Proofs.Query.OrderTerm

/-!
Field requests and columns are read back from what they are written as. Of all their parts only the
filter of a hop can be such that no document gives it, so it is followed through the draft.
-/

namespace GridQuery

open Read (Settled Steady steady_inlineCondition)

namespace Hop

theorem settled_put {draft next : Draft} {member : String × Json}
    (settled : Settled Read.inlineCondition Condition.toJson draft.filter.join)
    (step : draft.put member = .ok next) :
    Settled Read.inlineCondition Condition.toJson next.filter.join := by
  rw [Draft.put] at step
  split_ifs at step
  case neg =>
    cases step
    exact settled
  all_goals
    obtain ⟨filled, made, ⟨⟩⟩ := bind_eq_ok.mp step
    first | exact settled | exact steady_inlineCondition.fill_nullable made

/-- The filter of a hop that is read can be read again. -/
theorem settled_filter {document : Json} {hop : Hop} (made : ofJson document = .ok hop) :
    Settled Read.inlineCondition Condition.toJson hop.filter := by
  obtain ⟨members, _, made⟩ := bind_eq_ok.mp made
  obtain ⟨draft, filled, made⟩ := bind_eq_ok.mp made
  obtain ⟨field, _, made⟩ := bind_eq_ok.mp made
  cases made
  exact foldlM_preserves (P := fun draft => Settled _ _ draft.filter.join) filled
    Read.settled_none fun _ _ _ _ => settled_put

/-- The integers under a slot of naturals are its naturals. -/
theorem map_int (slot : Option Nat) :
    (slot.map fun value => .int value : Option Json) = slot.map fun value : Nat => .int value := by
  cases slot <;> rfl

theorem ofJson_toJson {hop : Hop}
    (settled : Settled Read.inlineCondition Condition.toJson hop.filter) :
    ofJson hop.toJson = .ok hop := by
  obtain ⟨field, path, filter, orderBy, limit, offset, distinctOn⟩ := hop
  have distinct (texts : List String) :
      Read.nullable (Read.list Read.string) (Json.strings texts) = .ok (some texts) :=
    Read.nullable_of_ok (by nofun) (Read.list_string texts)
  have ordered (terms : List OrderTerm) :
      Read.nullable (Read.list Read.orderTerm) (.array (terms.map OrderTerm.toJson)) =
        .ok (some terms) :=
    Read.nullable_of_ok (by nofun) (Read.list_map_of_each fun term _ => term.read_toJson)
  have filtered : ∀ condition ∈ filter,
      Read.nullable Read.inlineCondition condition.toJson = .ok (some condition) :=
    fun condition given => by
    obtain ⟨_, written, _⟩ := condition.toJson_keys
    exact Read.nullable_of_ok (by rw [written]; nofun) (settled condition given)
  refine bind_eq_ok.mpr ⟨_, rfl, bind_eq_ok.mpr ⟨⟨some field, path.map some, filter.map some,
    orderBy.map some, limit.map some, offset.map some, distinctOn.map some⟩, ?_, ?_⟩⟩
  · simp only [map_int, List.append_assoc, List.cons_append, List.nil_append]
    refine foldlM_optional (fun slot => ({ distinctOn := slot } : Draft))
      (fun texts _ => by simp only [Draft.put, distinct]; rfl) ?_
    refine foldlM_member rfl ?_
    refine foldlM_optional (fun slot => (⟨some field, none, none, none, slot, none,
      distinctOn.map some⟩ : Draft)) (fun _ _ => by rfl) ?_
    refine foldlM_optional (fun slot => (⟨some field, none, none, none, limit.map some, slot,
      distinctOn.map some⟩ : Draft)) (fun _ _ => by rfl) ?_
    refine foldlM_optional (fun slot => (⟨some field, none, none, slot, limit.map some,
      offset.map some, distinctOn.map some⟩ : Draft))
      (fun terms _ => by simp only [Draft.put, ordered]; rfl) ?_
    refine foldlM_optional (fun slot => (⟨some field, slot, none, orderBy.map some, limit.map some,
      offset.map some, distinctOn.map some⟩ : Draft)) (fun _ _ => by rfl) ?_
    refine foldlM_optional_last (fun slot => (⟨some field, path.map some, slot, orderBy.map some,
      limit.map some, offset.map some, distinctOn.map some⟩ : Draft)) (fun condition given => ?_)
    simp only [Draft.put, filtered condition given]
    rfl
  · simp only [join_map_some]
    rfl

theorem steady : Steady ofJson toJson :=
  fun _ _ made => ofJson_toJson (settled_filter made)

end Hop

namespace FieldRequest

/-- Reads one member, as `ofMembers` does with each. -/
def Draft.put (variant : Variant) (draft : Draft) : String × Json → Read Draft
  | (name, value) =>
    match variant with
    | .field =>
      if name = "path" then do
        return { draft with path := ← Read.fill draft.path (Read.string value) }
      else .ok draft
    | .hops =>
      if name = "configs" then do
        return { draft with hops := ← Read.fill draft.hops (Read.list Hop.ofJson value) }
      else .ok draft
    | .renamed =>
      if name = "alias" then do
        return { draft with name := ← Read.fill draft.name (Read.string value) }
      else if name = "query" then do
        return { draft with request := ← Read.fill draft.request (ofJson value) }
      else .ok draft

theorem ofMembers_eq_foldlM (variant : Variant) (draft : Draft) (members : List (String × Json)) :
    ofMembers variant draft members = members.foldlM (Draft.put variant) draft := by
  induction members generalizing draft with
  | nil => rfl
  | cons member rest ih =>
    obtain ⟨name, value⟩ := member
    rw [List.foldlM_cons, ofMembers.eq_def]
    cases variant
    all_goals
      dsimp only [Draft.put]
      split_ifs
    all_goals simp only [bind_assoc, pure_bind, ih]
    all_goals rfl

theorem ofJson_eq_ok {members : List (String × Json)} {request : FieldRequest} :
    ofJson (.object members) = .ok request ↔ ∃ tag, Read.tag members = .ok tag ∧
      ∃ variant, Variant.ofTag? tag = some variant ∧
        ∃ draft, members.foldlM (Draft.put variant) {} = .ok draft ∧
          draft.finish variant = .ok request := by
  simp only [ofJson, bind_eq_ok, Read.required_eq_ok, ofMembers_eq_foldlM]

/-- What the slots hold is read again from its written form. -/
structure Draft.Settled (draft : Draft) : Prop where
  hops : Read.Settled (Read.list Hop.ofJson) (fun chain => .array (chain.map Hop.toJson)) draft.hops
  request : Read.Settled ofJson toJson draft.request

theorem Draft.Settled.put {draft next : Draft} (settled : draft.Settled) {variant : Variant}
    {member : String × Json}
    (again : ∀ request, ofJson member.2 = .ok request → ofJson request.toJson = .ok request)
    (step : draft.put variant member = .ok next) : next.Settled := by
  cases variant with
  | field =>
    dsimp only [Draft.put] at step
    split_ifs at step
    · obtain ⟨_, _, ⟨⟩⟩ := bind_eq_ok.mp step
      exact ⟨settled.hops, settled.request⟩
    · cases step
      exact settled
  | hops =>
    dsimp only [Draft.put] at step
    split_ifs at step
    · obtain ⟨chain, made, ⟨⟩⟩ := bind_eq_ok.mp step
      exact ⟨Hop.steady.list.fill made, settled.request⟩
    · cases step
      exact settled
  | renamed =>
    dsimp only [Draft.put] at step
    split_ifs at step
    · obtain ⟨_, _, ⟨⟩⟩ := bind_eq_ok.mp step
      exact ⟨settled.hops, settled.request⟩
    · obtain ⟨request, made, ⟨⟩⟩ := bind_eq_ok.mp step
      exact ⟨settled.hops, Read.settled_fill again made⟩
    · cases step
      exact settled

theorem Draft.Settled.finish {draft : Draft} (settled : draft.Settled) {variant : Variant}
    {request : FieldRequest} (made : draft.finish variant = .ok request) :
    ofJson request.toJson = .ok request := by
  cases variant with
  | field =>
    obtain ⟨path, _, rfl⟩ := map_eq_ok.mp made
    rfl
  | hops =>
    obtain ⟨chain, given, rfl⟩ := map_eq_ok.mp made
    have read := settled.hops chain (Read.required_eq_ok.mp given)
    refine ofJson_eq_ok.mpr ⟨"queryConfigs", rfl, .hops, rfl, { hops := some chain },
      foldlM_member ?_ rfl, rfl⟩
    simp only [Draft.put, read]
    rfl
  | renamed =>
    obtain ⟨name, _, made⟩ := bind_eq_ok.mp made
    obtain ⟨inner, given, made⟩ := bind_eq_ok.mp made
    cases made
    have read := settled.request inner (Read.required_eq_ok.mp given)
    refine ofJson_eq_ok.mpr ⟨"fieldAlias", rfl, .renamed, rfl,
      { name := some name, request := some inner }, foldlM_member rfl (foldlM_member ?_ rfl), rfl⟩
    simp only [Draft.put, read]
    rfl

mutual

theorem rereads : ∀ {document : Json} {request : FieldRequest}, ofJson document = .ok request →
    ofJson request.toJson = .ok request
  | .object members, _, made => by
    obtain ⟨_, _, variant, _, draft, filled, made⟩ := ofJson_eq_ok.mp made
    have settled : draft.Settled :=
      foldlM_preserves filled ⟨Read.settled_none, Read.settled_none⟩
        fun member inside state next settled => settled.put (rereads_members members member inside)
    exact settled.finish made

theorem rereads_members : ∀ (members : List (String × Json)), ∀ member ∈ members, ∀ request,
    ofJson member.2 = .ok request → ofJson request.toJson = .ok request
  | [] => nofun
  | _ :: rest => List.forall_mem_cons.mpr ⟨fun _ => rereads, rereads_members rest⟩

end

theorem steady : Steady ofJson toJson :=
  fun _ _ => rereads

end FieldRequest

namespace Column

theorem settled_put {draft next : Draft} {member : String × Json}
    (settled : Settled (Read.list FieldRequest.ofJson)
      (fun requests => .array (requests.map FieldRequest.toJson)) draft.requests)
    (step : draft.put member = .ok next) :
    Settled (Read.list FieldRequest.ofJson)
      (fun requests => .array (requests.map FieldRequest.toJson)) next.requests := by
  rw [Draft.put] at step
  split_ifs at step
  case neg =>
    cases step
    exact settled
  all_goals
    obtain ⟨filled, made, ⟨⟩⟩ := bind_eq_ok.mp step
    first | exact settled | exact FieldRequest.steady.list.fill made

theorem steady : Steady ofJson toJson := by
  intro document column made
  obtain ⟨members, _, made⟩ := bind_eq_ok.mp made
  obtain ⟨draft, filled, made⟩ := bind_eq_ok.mp made
  obtain ⟨id, _, made⟩ := bind_eq_ok.mp made
  cases made
  have settled := foldlM_preserves (P := fun draft => Settled _ _ draft.requests) filled
    Read.settled_none fun _ _ _ _ => settled_put
  have data : Draft.put {} ("data", .array ((draft.requests.getD []).map FieldRequest.toJson)) =
      .ok ⟨none, none, some (draft.requests.getD [])⟩ := by
    simp only [Draft.put, settled.getD]
    rfl
  refine bind_eq_ok.mpr ⟨_, rfl, bind_eq_ok.mpr ⟨⟨some id, draft.header.join.map some,
    some (draft.requests.getD [])⟩, foldlM_member data ?_, ?_⟩⟩
  · exact foldlM_optional (fun slot => (⟨none, slot, _⟩ : Draft)) (fun _ _ => rfl) rfl
  · simp only [join_map_some]
    rfl

end Column

end GridQuery
