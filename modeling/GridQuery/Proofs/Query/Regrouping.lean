import GridQuery.Proofs.Query.SiblingFilters
import GridQuery.Proofs.View

/-!
Merging in groups: selections that were merged group by group before they are merged together come
to the same as selections that are merged all at once. Columns may therefore be taken up one after
another, and the document of a view does not tell how they were grouped.
-/

namespace GridQuery.Selection

/-- The items whose targets pass. -/
def kept (keep : Target → Bool) (items : List Selection) : List Selection :=
  items.filter fun item => keep item.target

/-- A test that does not tell items with the same target apart. -/
def Respects (keep : Target → Bool) (items : List Selection) : Prop :=
  ∀ first ∈ items, ∀ second ∈ items, first.target.same second.target = true →
    keep first.target = keep second.target

variable {keep : Target → Bool} {item : Selection} {target : Target}
variable {first second items rest : List Selection}

theorem Respects.subset (respects : Respects keep items) (subset : rest ⊆ items) :
    Respects keep rest :=
  fun first inside second inside' => respects first (subset inside) second (subset inside')

theorem kept_cons_of_passes (passes : keep item.target = true) :
    kept keep (item :: rest) = item :: kept keep rest :=
  List.filter_cons_of_pos passes

theorem kept_cons_of_fails (fails : keep item.target = false) :
    kept keep (item :: rest) = kept keep rest :=
  List.filter_cons_of_neg (by simp [fails])

theorem kept_apart : kept keep (target.apart items) = target.apart (kept keep items) :=
  List.filter_comm ..

section

variable (respects : Respects keep (item :: rest))

include respects

theorem keep_eq_of_same {other : Selection} (member : other ∈ rest)
    (same : item.target.same other.target = true) : keep other.target = keep item.target :=
  (respects item (List.mem_cons_self ..) other (List.mem_cons_of_mem _ member) same).symm

/-- If the first item is kept, so is all that it gathers. -/
theorem alike_kept (passes : keep item.target = true) :
    item.target.alike (kept keep rest) = item.target.alike rest := by
  rw [Target.alike, kept, List.filter_filter]
  apply List.filter_congr
  intro other member
  cases same : item.target.same other.target with
  | true => rw [keep_eq_of_same respects member same, passes, Bool.and_true]
  | false => rw [Bool.false_and]

/-- If the first item is not kept, nothing is kept of what it gathers. -/
theorem kept_apart_of_fails (fails : keep item.target = false) :
    kept keep (item.target.apart rest) = kept keep rest := by
  rw [Target.apart, kept, List.filter_filter]
  apply List.filter_congr
  intro other member
  cases same : item.target.same other.target with
  | true => rw [keep_eq_of_same respects member same, fails, Bool.false_and]
  | false => rw [Bool.not_false, Bool.and_true]

end

/-- Setting items aside by their targets and merging may trade places. -/
theorem kept_merge (respects : Respects keep items) :
    kept keep (merge items) = merge (kept keep items) := by
  induction items using apart_induction with
  | nil => rfl
  | cons item rest ih =>
    have others := ih (respects.subset apart_subset)
    rw [merge_cons]
    cases passes : keep item.target with
    | true =>
      rw [kept_cons_of_passes passes, kept_cons_of_passes (by rwa [target_gather]), others,
        merge_cons, alike_kept respects passes, kept_apart]
    | false =>
      rw [kept_cons_of_fails passes, kept_cons_of_fails (by rwa [target_gather]), others,
        kept_apart_of_fails respects passes]

theorem ordered_of_mem (ordered : OrderedFilters items) (member : item ∈ items) :
    item.target.Ordered :=
  ordered _ (mem_walk_of_mem member) _ (List.mem_singleton_self _)

theorem respects_same (ordered : OrderedFilters items) (orderedTarget : target.Ordered) :
    Respects target.same items := by
  intro first inside second inside' same
  have orderedFirst := ordered_of_mem ordered inside
  have orderedSecond := ordered_of_mem ordered inside'
  rw [Target.same_iff orderedFirst orderedSecond] at same
  rw [Bool.eq_iff_iff, Target.same_iff orderedTarget orderedFirst,
    Target.same_iff orderedTarget orderedSecond, same]

theorem alike_merge (ordered : OrderedFilters items) (orderedTarget : target.Ordered) :
    target.alike (merge items) = merge (target.alike items) :=
  kept_merge (respects_same ordered orderedTarget)

theorem apart_merge (ordered : OrderedFilters items) (orderedTarget : target.Ordered) :
    target.apart (merge items) = merge (target.apart items) := by
  have respects : Respects (fun other => !target.same other) items :=
    fun first inside second inside' same =>
      congrArg not (respects_same ordered orderedTarget first inside second inside' same)
  exact kept_merge respects

section

variable (ordered : OrderedFilters items) (orderedTarget : target.Ordered)

include ordered orderedTarget

theorem alike_together : ∀ first ∈ target.alike items, ∀ second ∈ target.alike items,
    first.target.same second.target = true := by
  intro first inside second inside'
  obtain ⟨member, same⟩ := List.mem_filter.mp inside
  obtain ⟨member', same'⟩ := List.mem_filter.mp inside'
  have orderedFirst := ordered_of_mem ordered member
  have orderedSecond := ordered_of_mem ordered member'
  rw [Target.same_iff orderedTarget orderedFirst] at same
  rw [Target.same_iff orderedTarget orderedSecond] at same'
  rw [Target.same_iff orderedFirst orderedSecond, ← same, same']

theorem children_merge_alike :
    children (merge (target.alike items)) = merge (children (target.alike items)) :=
  children_merge_of_together (alike_together ordered orderedTarget)

theorem lastSet_merge_alike {α : Type} {argument : Selection → Option α}
    (last : ∀ item group, argument (item.gather merge group) = lastSet argument (item :: group)) :
    lastSet argument (merge (target.alike items)) = lastSet argument (target.alike items) := by
  rcases merge_of_together (alike_together ordered orderedTarget) with
    none | ⟨item, rest, group, merged⟩
  · rw [none]
    rfl
  · rw [merged, group, lastSet_single, last]

end

/-- An item gathers from merged items what it gathers from the items themselves, if that holds of
the selections below. -/
theorem gather_merge (ordered : OrderedFilters items) (orderedItem : item.target.Ordered)
    (under : merge (children (item :: rest) ++ merge (children (item.target.alike items))) =
      merge (children (item :: rest) ++ children (item.target.alike items))) :
    item.gather merge (rest ++ merge (item.target.alike items)) =
      item.gather merge (rest ++ item.target.alike items) := by
  have last : ∀ {α : Type} (argument : Selection → Option α),
      (∀ item group, argument (item.gather merge group) = lastSet argument (item :: group)) →
        lastSet argument (item :: (rest ++ merge (item.target.alike items))) =
          lastSet argument (item :: (rest ++ item.target.alike items)) := by
    intro α argument gathers
    rw [← List.cons_append, lastSet_append, lastSet_merge_alike ordered orderedItem gathers,
      ← lastSet_append, List.cons_append]
  have selections : merge (children (item :: (rest ++ merge (item.target.alike items)))) =
      merge (children (item :: (rest ++ item.target.alike items))) := by
    rw [← List.cons_append, children_append, children_merge_alike ordered orderedItem, under,
      ← children_append, List.cons_append]
  rw [gather, gather, selections, last orderBy fun _ _ => rfl, last limit fun _ _ => rfl,
    last offset fun _ _ => rfl, last distinctOn fun _ _ => rfl]

theorem ordered_append_right (first : List Selection)
    (ordered : OrderedFilters (first ++ second)) :
    OrderedFilters second := by
  intro visit member
  exact ordered visit (walk_append first second ▸ List.mem_append_right _ member)

/-- Merging beforehand what comes later makes no difference. -/
theorem merge_append_merge (ordered : OrderedFilters (first ++ second)) :
    merge (first ++ merge second) = merge (first ++ second) := by
  generalize whole : first ++ second = items at ordered
  induction items using merge_induction generalizing first second with
  | nil =>
    obtain ⟨rfl, rfl⟩ := List.append_eq_nil_iff.mp whole
    rfl
  | cons item rest gathered others =>
    cases first with
    | nil =>
      have again := merge_append second []
      rw [List.append_nil, List.append_nil] at again
      rw [← whole, List.nil_append, List.nil_append, again]
    | cons head before =>
      rw [List.cons_append] at whole
      obtain ⟨rfl, rfl⟩ := List.cons.inj whole
      have orderedHead := ordered_start ordered (List.mem_cons_self ..)
      have orderedSecond : OrderedFilters second :=
        ordered_append_right (head :: before) ordered
      have under : merge (children (head :: head.target.alike before) ++
            merge (children (head.target.alike second))) =
          merge (children (head :: head.target.alike before) ++
            children (head.target.alike second)) := by
        have joined : children (head :: head.target.alike before) ++
            children (head.target.alike second) =
              children (head :: head.target.alike (before ++ second)) := by
          rw [alike_append, ← List.cons_append, children_append]
        rw [joined]
        exact gathered joined (ordered_gathered ordered)
      have apart : merge (head.target.apart before ++ merge (head.target.apart second)) =
          merge (head.target.apart (before ++ second)) :=
        others apart_append.symm (ordered_others ordered)
      rw [List.cons_append, merge_cons, merge_cons, alike_append, apart_append,
        alike_merge orderedSecond orderedHead, apart_merge orderedSecond orderedHead, apart,
        gather_merge orderedSecond orderedHead under, alike_append]

/-- Merging group by group and then together is merging at once. -/
theorem merge_flatMap_merge (groups : List (List Selection))
    (ordered : OrderedFilters groups.flatten) :
    merge (groups.flatMap merge) = merge groups.flatten := by
  induction groups using List.reverseRecOn with
  | nil => rfl
  | append_singleton earlier group ih =>
    rw [List.flatten_concat] at ordered ⊢
    have before : OrderedFilters earlier.flatten := by
      intro visit member
      exact ordered visit (walk_append _ _ ▸ List.mem_append_left _ member)
    calc merge ((earlier ++ [group]).flatMap merge)
        = merge (earlier.flatMap merge ++ merge group) := by simp
      _ = merge (merge (earlier.flatMap merge) ++ merge group) := (merge_append _ _).symm
      _ = merge (merge earlier.flatten ++ merge group) := by rw [ih before]
      _ = merge (earlier.flatten ++ merge group) := merge_append _ _
      _ = merge (earlier.flatten ++ group) := merge_append_merge ordered

/-- In a view that is read all filters have their entries in order. -/
theorem ordered_requested {document : Json} {view : View} (made : View.read document = .ok view) :
    OrderedFilters (requested view.columns) := by
  intro visit visited target among condition filtered
  obtain ⟨column, inside, listed⟩ := exists_column_of_visit visited among filtered
  have read := Column.filters_reread_of_list (View.reread_parts made).1 inside listed
  exact Condition.read_ordered (Read.inlineCondition_eq_ok.mp read).1

/-- Columns that were taken up in groups select what they select together. -/
theorem ofColumns_flatten (groups : List (List Column))
    (ordered : OrderedFilters (requested groups.flatten)) :
    merge (groups.flatMap ofColumns) = ofColumns groups.flatten := by
  have each : (groups.map requested).flatten = requested groups.flatten := by
    rw [requested, List.flatMap_def, List.map_flatten, List.flatten_flatten, List.map_map]
    rfl
  have merged := merge_flatMap_merge (groups.map requested) (each ▸ ordered)
  rw [each, List.flatMap_map] at merged
  exact merged

/-- Merging in steps is merging at once, merging twice is merging once, and the document of a view
does not depend on how its columns were grouped. -/
theorem merge_regroups (first second : List Selection)
    (ordered : OrderedFilters (first ++ second)) :
    merge (merge first ++ merge second) = merge (first ++ second) ∧
      merge (merge first) = merge first ∧
        ∀ (view : View) (groups : List (List Column)), groups.flatten = view.columns →
          OrderedFilters (requested view.columns) →
            { view.document with
                selections := ensurePath (merge (groups.flatMap ofColumns)) view.paginationKey } =
              view.document := by
  refine ⟨?_, ?_, ?_⟩
  · rw [merge_append, merge_append_merge ordered]
  · have again := merge_append first []
    rwa [List.append_nil, List.append_nil] at again
  · intro view groups columns orderedView
    rw [← columns] at orderedView
    rw [ofColumns_flatten groups orderedView, columns]
    rfl

/-- A field of the done tasks, with the conjuncts of their filter in the given order. -/
def doneTasksColumn (conditions : List Condition) (field : String) : Column :=
  ⟨field, none, [.hops [{ Hop.plain "tasks" with filter := some (.and conditions) },
    .plain field]]⟩

def titles : Column :=
  doneTasksColumn [isDone, .empty] "title"

def dueDates : Column :=
  doneTasksColumn [.empty, isDone] "due"

def tasksView : View where
  title := none
  collection := "users"
  columns := [titles, dueDates]
  schema := .empty
  conditionType := "users_bool_exp"
  orderType := "[users_order_by!]"
  paginationKey := "id"
  staticConditions := []
  staticOrder := []

/-- Two columns that were merged apart share the item of the tasks. -/
theorem tasksView_regroups :
    OrderedFilters (requested [titles] ++ requested [dueDates]) ∧
      merge (merge (requested [titles]) ++ merge (requested [dueDates])) =
        [doneTasks [isDone, .empty] none [plain "title", plain "due"]] ∧
      { tasksView.document with
          selections := ensurePath (merge ([[titles], [dueDates]].flatMap ofColumns)) "id" } =
        tasksView.document := by
  have made : View.read tasksView.toJson = .ok tasksView := rfl
  have ordered : OrderedFilters (requested [titles] ++ requested [dueDates]) :=
    ordered_requested made
  obtain ⟨joined, _, regrouped⟩ := merge_regroups _ _ ordered
  exact ⟨ordered, joined, regrouped tasksView [[titles], [dueDates]] rfl ordered⟩

end GridQuery.Selection
