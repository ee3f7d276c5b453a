import GridQuery.Proofs.Condition.Pairing
import GridQuery.Proofs.Form.Meaning
import GridQuery.Proofs.Form.Merging
import GridQuery.Proofs.Form.Recasting

/-!
Suggestions in which nothing is filled in. What they come to puts no condition on the rows but in
one case: a leaf that excludes members makes a list of a negated value, and a list of one blank is
not blank.
-/

namespace GridQuery

/-- The value stands at a leaf of the suggestion. -/
inductive LeafValue (value : Json) : Json → Prop
  | leaf {suggestion : Json} (kind : suggestedKind? suggestion = some "leaf")
      (held : suggestedValue suggestion = value) : LeafValue value suggestion
  | child {suggestion part : Json} {parts : List Json}
      (kind : suggestedKind? suggestion = some "and" ∨ suggestedKind? suggestion = some "or")
      (listed : suggestion.get? "children" = some (.array parts)) (member : part ∈ parts)
      (inner : LeafValue value part) : LeafValue value suggestion
  | negated {suggestion part : Json} (kind : suggestedKind? suggestion = some "not")
      (under : suggestion.get? "child" = some part) (inner : LeafValue value part) :
      LeafValue value suggestion

/-- Whatever stands at a leaf of the suggestion is blank. -/
def Unfilled (suggestion : Json) : Prop :=
  ∀ value, LeafValue value suggestion → value.Blank

namespace Unfilled

variable {suggestion part : Json} {parts : List Json}

theorem leaf (kind : suggestedKind? suggestion = some "leaf")
    (blank : (suggestedValue suggestion).Blank) : Unfilled suggestion := by
  intro value held
  cases held with
  | leaf _ same => exact same ▸ blank
  | child other => simp [kind] at other
  | negated other => simp [kind] at other

theorem children
    (kind : suggestedKind? suggestion = some "and" ∨ suggestedKind? suggestion = some "or")
    (listed : suggestion.get? "children" = some (.array parts))
    (each : ∀ part ∈ parts, Unfilled part) : Unfilled suggestion := by
  intro value held
  cases held with
  | leaf other => simp [other] at kind
  | child _ listed' member inner =>
    cases listed.symm.trans listed'
    exact each _ member value inner
  | negated other => simp [other] at kind

theorem negated (kind : suggestedKind? suggestion = some "not")
    (under : suggestion.get? "child" = some part) (inner : Unfilled part) :
    Unfilled suggestion := by
  intro value held
  cases held with
  | leaf other => simp [kind] at other
  | child other => simp [kind] at other
  | negated _ under' held =>
    cases under.symm.trans under'
    exact inner value held

end Unfilled

namespace FormState

variable {state : FormState} {expression : FilterExpr}

theorem condition?_eq_none_iff (fits : state.Fits expression) :
    state.condition? expression = .ok none ↔ ¬ state.Active expression := by
  obtain ⟨result, compiled⟩ := fits.condition?_ok
  have reads : Reads (fun _ _ _ => True) _ _ result := reads_condition? compiled
  rw [compiled]
  cases result with
  | none => exact iff_of_true rfl reads
  | some condition => exact iff_of_false nofun (not_not_intro reads.1)

end FormState

namespace FilterLeaf

/-- The leaf excludes the members of a list and is offered one value, negated. -/
def ListsNegated (leaf : FilterLeaf) (suggestion : Json) : Prop :=
  leaf.operator = .notIn ∧ leaf.control.operators? = none ∧
    suggestedKind? suggestion = some "not" ∧
    ∃ inner, suggestion.get? "child" = some inner ∧ (suggestedValue inner).isArray = false

variable {leaf : FilterLeaf} {suggestion value operator : Json}

theorem active_iff_of_hookless (hookless : leaf.hook = none) :
    leaf.Active value ↔ ∃ comparison, leaf.comparison? value = some comparison := by
  rw [Active, hookless]
  constructor
  · rintro ⟨key, operand, compares⟩
    exact ⟨⟨key, operand⟩, comparison?_of_compares compares⟩
  · rintro ⟨comparison, made⟩
    exact ⟨_, _, comparison?_eq_some_iff.mp made⟩

theorem comparison?_blank (blank : value.Blank) : leaf.comparison? value = none := by
  cases choice : leaf.control.operators? with
  | none => rw [comparison?_of_plain choice, if_pos (Json.isBlank_iff.mpr blank)]
  | some operators =>
    rw [comparison?_of_choice choice, chosenComparison?_eq]
    cases blank <;> rfl

theorem comparison?_operatorPair_blank {operators : List Choice}
    (choice : leaf.control.operators? = some operators) (blank : value.Blank) :
    leaf.comparison? (operatorPair operator value) = none := by
  have given : (operatorPair operator value).getOrNull "value" = value := rfl
  rw [comparison?_of_choice choice, chosenComparison?_eq, given, Json.isBlank_iff.mpr blank]
  simp

theorem comparison?_acceptValue_blank (blank : value.Blank) :
    leaf.comparison? (leaf.acceptValue value) = none := by
  cases choice : leaf.control.operators? with
  | none =>
    rw [acceptValue_of_plain choice, Json.isBlank_iff.mpr blank]
    simpa using comparison?_blank blank
  | some operators =>
    have unnamed : value.get? "operator" = none := by cases blank <;> rfl
    rw [acceptValue_of_choice choice, unnamed]
    exact comparison?_operatorPair_blank choice blank

theorem alternatives?_blank : ∀ {items values : List Json},
    (∀ item ∈ items, Unfilled item) → alternatives? items = some values → values = []
  | [], values, _, gathered => by
    cases gathered
    rfl
  | item :: rest, values, unfilled, gathered => by
    obtain ⟨here, later⟩ := List.forall_mem_cons.mp unfilled
    rw [alternatives?, Option.ite_none_right_eq_some] at gathered
    obtain ⟨kind, gathered⟩ := gathered
    obtain ⟨others, below, gathered⟩ := Option.bind_eq_some_iff.mp gathered
    cases alternatives?_blank later below
    cases gathered
    match suggestedValue item, here _ (.leaf kind rfl) with
    | _, .null | _, .text | _, .array => rfl

theorem listsNegated_of_plain (plain : leaf.control.operators? = none)
    (kind : suggestedKind? suggestion = some "not") {inner : Json}
    (under : suggestion.get? "child" = some inner) : leaf.ListsNegated suggestion ↔
      leaf.operator = .notIn ∧ (suggestedValue inner).isArray = false := by
  simp [ListsNegated, plain, kind, under]

/-- A negated blank is kept blank, paired or put into a list; only the list says anything. -/
theorem active_negated (hookless : leaf.hook = none)
    (kind : suggestedKind? suggestion = some "not") {inner : Json}
    (under : suggestion.get? "child" = some inner) (blank : (suggestedValue inner).Blank)
    (folded : leaf.acceptNegated? (suggestedValue inner) = some value) :
    leaf.Active value ↔ leaf.ListsNegated suggestion := by
  rw [active_iff_of_hookless hookless]
  cases choice : leaf.control.operators? with
  | some operators =>
    rw [acceptNegated?_of_choice choice folded, comparison?_operatorPair_blank choice blank]
    refine iff_of_false nofun fun lists => ?_
    exact nomatch choice.symm.trans lists.2.1
  | none =>
    rw [acceptNegated?_of_plain choice] at folded
    rw [listsNegated_of_plain choice kind under]
    split at folded
    next operator =>
      cases folded
      rw [comparison?_blank blank, operator]
      exact iff_of_false nofun nofun
    next operator =>
      cases folded
      split
      next list =>
        rw [comparison?_blank blank, list]
        exact iff_of_false nofun nofun
      next single =>
        rw [comparison?_of_plain choice]
        exact iff_of_true ⟨_, rfl⟩ ⟨operator, by simpa using single⟩
    next => cases folded

/-- Where nothing is filled in, a leaf says something only if it makes a list of a negated blank. -/
theorem Accepts.active_iff (hookless : leaf.hook = none) (unfilled : Unfilled suggestion)
    (accepts : leaf.Accepts suggestion value) :
    leaf.Active value ↔ leaf.ListsNegated suggestion := by
  have idle {tag : String} (kind : suggestedKind? suggestion = some tag) (differs : tag ≠ "not")
      (nothing : leaf.comparison? value = none) :
      leaf.Active value ↔ leaf.ListsNegated suggestion := by
    rw [active_iff_of_hookless hookless, nothing]
    refine iff_of_false nofun fun lists => ?_
    exact differs (Option.some.inj (kind.symm.trans lists.2.2.1))
  cases accepts with
  | value kind =>
    have blank := unfilled _ (.leaf kind rfl)
    exact idle kind (by decide) (comparison?_acceptValue_blank blank)
  | negated kind under plain folded =>
    have blank := unfilled _ (.negated kind under (.leaf plain rfl))
    exact active_negated hookless kind under blank folded
  | alternatives kind _ listed gathered =>
    have each : ∀ item ∈ _, Unfilled item :=
      fun item member value held => unfilled value (.child (.inr kind) listed member held)
    rw [alternatives?_blank each gathered] at idle ⊢
    exact idle kind (by decide) (comparison?_blank .array)

end FilterLeaf

namespace FilterExpr

mutual

/-- What stands at a leaf of an offer stands at a leaf of the whole suggestion. -/
theorem leafValue_of_offer : ∀ {expression : FilterExpr} {suggestion : Json} {state : FormState}
    {offer : FilterLeaf × Json} {value : Json}, expression.accept? suggestion = some state →
      offer ∈ expression.offers suggestion → LeafValue value offer.2 → LeafValue value suggestion
  | .leaf contents, suggestion, state, offer, value, _, offered, held => by
    cases List.mem_singleton.mp offered
    exact held
  | .and filters, suggestion, state, offer, value, accepted, offered, held => by
    obtain ⟨kind, items, children, listed, each, _⟩ := accept?_and accepted
    rw [offers, suggestedParts_of_listed listed] at offered
    obtain ⟨part, member, inner⟩ := leafValue_of_listed each offered held
    exact .child (.inl kind) listed member inner
  | .or filters, suggestion, state, offer, value, accepted, offered, held => by
    obtain ⟨kind, items, children, listed, each, _⟩ := accept?_or accepted
    rw [offers, suggestedParts_of_listed listed] at offered
    obtain ⟨part, member, inner⟩ := leafValue_of_listed each offered held
    exact .child (.inr kind) listed member inner
  | .not filter, suggestion, state, offer, value, accepted, offered, held => by
    obtain ⟨kind, inner, child, under, below, _⟩ := accept?_not accepted
    rw [offers, Json.getOrNull, under] at offered
    exact .negated kind under (leafValue_of_offer below offered held)

theorem leafValue_of_listed : ∀ {filters : List FilterExpr} {items : List Json}
    {children : List FormState} {offer : FilterLeaf × Json} {value : Json},
    acceptList? filters items = some children → offer ∈ offersOfList filters items →
      LeafValue value offer.2 → ∃ item ∈ items, LeafValue value item
  | [], _, _, _, _, _, offered, _ => by cases offered
  | filter :: rest, items, children, offer, value, accepted, offered, held => by
    obtain ⟨first, later, state, others, rfl, here, there, _⟩ := acceptList?_cons accepted
    rw [offersOfList, List.mem_append] at offered
    rcases offered with offered | offered
    · exact ⟨first, List.mem_cons_self, leafValue_of_offer here offered held⟩
    · obtain ⟨item, member, inner⟩ := leafValue_of_listed there offered held
      exact ⟨item, List.mem_cons_of_mem _ member, inner⟩

end

variable {expression : FilterExpr} {suggestion : Json} {state : FormState}

theorem offers_leaves (accepted : expression.accept? suggestion = some state) :
    (expression.offers suggestion).map Prod.fst = expression.leaves := by
  rw [← (mirrors_of_accept? accepted).leaves, ← List.forall₂_eq_eq_eq,
    List.forall₂_map_left_iff, List.forall₂_map_right_iff]
  exact (takenFrom_offers accepted).imp fun _ _ taken => taken.1.symm

/-- A suggestion in which nothing is filled in comes to no condition, unless it offers a negated
value that is no list to a leaf that excludes members. -/
theorem unfilled_idle_iff (expression : FilterExpr) (suggestion : Json) (state : FormState)
    (hookless : expression.Hookless) (unfilled : Unfilled suggestion)
    (accepted : expression.accept? suggestion = some state) :
    state.condition? expression = .ok none ↔
      ∀ offer ∈ expression.offers suggestion, ¬ offer.1.ListsNegated offer.2 := by
  rw [FormState.condition?_eq_none_iff (mirrors_of_accept? accepted).fits,
    FormState.active_iff_exists_leaf]
  simp only [not_exists, not_and]
  symm
  apply forall₂_forall_iff (takenFrom_offers accepted)
  rintro offer offered pair ⟨same, accepts⟩
  have free : offer.1.hook = none := by
    apply hookless
    rw [← offers_leaves accepted]
    exact List.mem_map_of_mem offered
  have blank : Unfilled offer.2 :=
    fun value held => unfilled value (leafValue_of_offer accepted offered held)
  rw [same, accepts.active_iff free blank]

/-- A choice of operators, a test of membership under a negation, and two leaves that negate by
themselves. -/
def mixedLeaves : FilterExpr :=
  .and [.leaf (.plain .equals (.one "due")
      (.operatorChoice [⟨"is", .string "_eq"⟩, ⟨"is not", .string "_neq"⟩] (.text none none) none)),
    .or [.not (.leaf (.plain .isIn (.one "tag") (.multiselect [] none))),
      .leaf (.plain .notEquals (.one "name") (.text none none))],
    .leaf (.plain .notIn (.one "tag") (.multiselect [] none))]

def mixedBlanks : FormState :=
  .and [.not (.leaf .null), .or [.not (.or [.leaf (.string ""), .leaf (.array [])]),
    .not (.leaf (.string ""))], .not (.leaf (.array []))]

def mixedIdle : FormState :=
  .and [.leaf (operatorPair (.string "_neq") .null), .or [.not (.leaf (.array [])),
    .leaf (.string "")], .leaf (.array [])]

theorem mixedBlanks_idle_iff :
    mixedLeaves.Hookless ∧ Unfilled mixedBlanks.toJson ∧
      mixedLeaves.accept? mixedBlanks.toJson = some mixedIdle ∧
      (mixedIdle.condition? mixedLeaves = .ok none ↔
        ∀ offer ∈ mixedLeaves.offers mixedBlanks.toJson, ¬ offer.1.ListsNegated offer.2) := by
  have hookless : mixedLeaves.Hookless := by
    simp [Hookless, mixedLeaves, leaves, leavesOfList, FilterLeaf.plain]
  have unfilled : Unfilled mixedBlanks.toJson := by
    have tags : Unfilled (FormState.or [.leaf (.string ""), .leaf (.array [])]).toJson :=
      .children (.inr rfl) rfl (List.forall_mem_cons.mpr
        ⟨.leaf rfl .text, List.forall_mem_singleton.mpr (.leaf rfl .array)⟩)
    have middle : Unfilled (FormState.or [.not (.or [.leaf (.string ""), .leaf (.array [])]),
        .not (.leaf (.string ""))]).toJson :=
      .children (.inr rfl) rfl (List.forall_mem_cons.mpr ⟨.negated rfl rfl tags,
        List.forall_mem_singleton.mpr (.negated rfl rfl (.leaf rfl .text))⟩)
    exact .children (.inl rfl) rfl (List.forall_mem_cons.mpr
      ⟨.negated rfl rfl (.leaf rfl .null), List.forall_mem_cons.mpr
        ⟨middle, List.forall_mem_singleton.mpr (.negated rfl rfl (.leaf rfl .array))⟩⟩)
  exact ⟨hookless, unfilled, rfl,
    unfilled_idle_iff mixedLeaves mixedBlanks.toJson mixedIdle hookless unfilled rfl⟩

/-- A negated empty text turns into a list, which selects rows. -/
theorem negatedBlank_selects :
    Unfilled (FormState.leaf (.string "")).not.toJson ∧
      (leaf (.plain .notIn (.one "tag") (.text none none))).accept?
          (FormState.leaf (.string "")).not.toJson = some (.leaf (.array [.string ""])) ∧
      (FormState.leaf (.array [.string ""])).condition?
          (.leaf (.plain .notIn (.one "tag") (.text none none))) =
        .ok (some (.nest "tag" (.comparison ⟨.notIn, .array [.string ""]⟩))) := by
  exact ⟨.negated rfl rfl (.leaf rfl .text), rfl, rfl⟩

end FilterExpr

end GridQuery
