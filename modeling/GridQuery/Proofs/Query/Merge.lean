import GridQuery.Query.Selection

/-!
What merging selections comes to: the first item gathers all later ones with its target, their
selections are merged once, and the items with other targets are merged apart from it.
-/

namespace GridQuery.Selection

/-- What tells an item from the others of its level. -/
structure Target where
  field : String
  name : Option String
  path : Option String
  filter : Option Condition

def target (item : Selection) : Target :=
  ⟨item.field, item.name, item.path, item.filter⟩

/-- Filters count up to the order of their parts. -/
def Target.same (left right : Target) : Bool :=
  left.field = right.field && left.name = right.name && left.path = right.path &&
    match left.filter, right.filter with
    | none, none => true
    | some filter, some other => filter.same other
    | _, _ => false

/-- The items that have the target. -/
def Target.alike (target : Target) (items : List Selection) : List Selection :=
  items.filter fun item => target.same item.target

/-- The items that have another target. -/
def Target.apart (target : Target) (items : List Selection) : List Selection :=
  items.filter fun item => !target.same item.target

/-- The argument that the last item setting it gives it. -/
def lastSet {α : Type} (argument : Selection → Option α) (items : List Selection) : Option α :=
  (items.filterMap argument).getLast?

/-- The selections of all items. -/
def children (items : List Selection) : List Selection :=
  items.flatMap selections

/-- One item for a group that shares its target. -/
def gather (merge : List Selection → List Selection) (item : Selection) (group : List Selection) :
    Selection :=
  { item with
    orderBy := lastSet orderBy (item :: group)
    limit := lastSet limit (item :: group)
    offset := lastSet offset (item :: group)
    distinctOn := lastSet distinctOn (item :: group)
    selections := merge (children (item :: group)) }

variable {item other head : Selection} {target : Target} {items group rest : List Selection}
variable {α : Type}

theorem sameTarget_eq : item.sameTarget other = item.target.same other.target := by
  unfold sameTarget sameFilter Target.same
  rfl

/-- Items with one target have one field and one name. -/
theorem heading_of_same (same : item.target.same other.target = true) :
    other.field = item.field ∧ other.name = item.name := by
  simp only [Target.same, Bool.and_eq_true, decide_eq_true_eq] at same
  exact ⟨same.1.1.1.symm, same.1.1.2.symm⟩

theorem mem_apart : item ∈ target.apart items ↔ item ∈ items ∧ target.same item.target = false := by
  rw [Target.apart, List.mem_filter, Bool.not_eq_true']

theorem alike_append : target.alike (items ++ rest) = target.alike items ++ target.alike rest :=
  List.filter_append ..

theorem apart_append : target.apart (items ++ rest) = target.apart items ++ target.apart rest :=
  List.filter_append ..

theorem lastSet_append (argument : Selection → Option α) (first second : List Selection) :
    lastSet argument (first ++ second) = (lastSet argument second).or (lastSet argument first) := by
  rw [lastSet, List.filterMap_append, List.getLast?_append, lastSet, lastSet]

theorem lastSet_single (argument : Selection → Option α) (item : Selection) :
    lastSet argument [item] = argument item := by
  cases set : argument item <;> simp [lastSet, set]

theorem lastSet_eq_none_iff {argument : Selection → Option α} :
    lastSet argument items = none ↔ ∀ item ∈ items, argument item = none := by
  rw [lastSet, List.getLast?_eq_none_iff, List.filterMap_eq_nil_iff]

theorem children_cons (item : Selection) (items : List Selection) :
    children (item :: items) = item.selections ++ children items :=
  List.flatMap_cons

theorem children_append (first second : List Selection) :
    children (first ++ second) = children first ++ children second :=
  List.flatMap_append

section Gather

variable (merge : List Selection → List Selection)

@[simp]
theorem target_gather : (item.gather merge group).target = item.target :=
  rfl

@[simp]
theorem selections_gather :
    (item.gather merge group).selections = merge (children (item :: group)) :=
  rfl

theorem gather_nil :
    item.gather merge [] = { item with selections := merge item.selections } := by
  simp [gather, lastSet_single, children]

theorem absorb_eq_gather : item.absorb merge other = item.gather merge [other] := by
  have last : ∀ {β : Type} (argument : Selection → Option β),
      lastSet argument [item, other] = (argument other).or (argument item) := by
    intro β argument
    rw [← List.singleton_append, lastSet_append, lastSet_single, lastSet_single]
  simp [absorb, gather, last, children]

/-- A later item goes to the first merged one or to those after it. -/
theorem foldl_place (merged : List Selection) :
    items.foldl (fun merged item => place merge item merged) (head :: merged) =
      (head.target.alike items).foldl (absorb merge) head ::
        (head.target.apart items).foldl (fun merged item => place merge item merged) merged := by
  induction items generalizing head merged with
  | nil => rfl
  | cons item rest ih =>
    rw [List.foldl_cons, place, sameTarget_eq]
    split
    next same =>
      rw [ih]
      have kept : (head.absorb merge item).target = head.target := rfl
      simp [Target.alike, Target.apart, same, kept]
    next differs =>
      rw [ih]
      simp [Target.alike, Target.apart, differs]

variable (absorbs : ∀ first second, merge (merge first ++ second) = merge (first ++ second))

include absorbs

/-- Gathering goes on from what was gathered, if merging again what was merged before makes no
difference. -/
theorem gather_gather :
    (item.gather merge group).gather merge items = item.gather merge (group ++ items) := by
  have last : ∀ {β : Type} (argument : Selection → Option β) (first : Selection),
      argument first = lastSet argument (item :: group) →
        lastSet argument (first :: items) = lastSet argument (item :: (group ++ items)) := by
    intro β argument first set
    rw [← List.singleton_append, lastSet_append, lastSet_single, set, ← lastSet_append,
      List.cons_append]
  have under : merge (children (item.gather merge group :: items)) =
      merge (children (item :: (group ++ items))) := by
    rw [children_cons, ← List.cons_append, children_append]
    exact absorbs _ _
  rw [gather, under, last orderBy _ rfl, last limit _ rfl, last offset _ rfl, last distinctOn _ rfl]
  rfl

theorem foldl_absorb :
    items.foldl (absorb merge) (item.gather merge group) = item.gather merge (group ++ items) := by
  induction items generalizing group with
  | nil => simp
  | cons other rest ih =>
    rw [List.foldl_cons, absorb_eq_gather, gather_gather merge absorbs, ih, List.append_assoc,
      List.singleton_append]

end Gather

/-- Induction that sets the items with the target of the first one aside. -/
theorem apart_induction {motive : List Selection → Prop} (nil : motive [])
    (cons : ∀ item rest, motive (item.target.apart rest) → motive (item :: rest)) (items) :
    motive items :=
  match items with
  | [] => nil
  | item :: rest => cons item rest (apart_induction nil cons (item.target.apart rest))
termination_by items.length
decreasing_by
  rw [List.length_cons]
  exact Nat.lt_succ_of_le (List.length_filter_le ..)

section Levels

variable {count : Nat}

/-- Merging again what was merged before makes no difference, at most this many levels deep. -/
def Absorbs (count : Nat) : Prop :=
  ∀ first second, mergeLevels count (mergeLevels count first ++ second) =
    mergeLevels count (first ++ second)

theorem mergeLevels_nil : mergeLevels count [] = [] := by
  cases count <;> rfl

theorem mergeLevels_cons (absorbs : Absorbs count) :
    mergeLevels (count + 1) (item :: rest) =
      item.gather (mergeLevels count) (item.target.alike rest) ::
        mergeLevels (count + 1) (item.target.apart rest) := by
  rw [mergeLevels, List.foldl_cons, place, ← gather_nil, foldl_place, target_gather,
    foldl_absorb _ absorbs, List.nil_append, mergeLevels]

theorem exists_target_of_mem (absorbs : Absorbs count)
    (member : other ∈ mergeLevels (count + 1) items) :
    ∃ source ∈ items, source.target = other.target := by
  induction items using apart_induction with
  | nil =>
    rw [mergeLevels_nil] at member
    cases member
  | cons item rest ih =>
    rw [mergeLevels_cons absorbs] at member
    rcases List.mem_cons.mp member with rfl | later
    · exact ⟨item, List.mem_cons_self .., rfl⟩
    · obtain ⟨source, inside, same⟩ := ih later
      exact ⟨source, List.mem_cons_of_mem _ (mem_apart.mp inside).1, same⟩

theorem alike_mergeLevels_apart (absorbs : Absorbs count) :
    target.alike (mergeLevels (count + 1) (target.apart items)) = [] := by
  rw [Target.alike, List.filter_eq_nil_iff]
  intro item member same
  obtain ⟨source, inside, kept⟩ := exists_target_of_mem absorbs member
  rw [← kept, (mem_apart.mp inside).2] at same
  cases same

theorem apart_mergeLevels_apart (absorbs : Absorbs count) :
    target.apart (mergeLevels (count + 1) (target.apart items)) =
      mergeLevels (count + 1) (target.apart items) := by
  rw [Target.apart, List.filter_eq_self]
  intro item member
  obtain ⟨source, inside, kept⟩ := exists_target_of_mem absorbs member
  rw [← kept, (mem_apart.mp inside).2, Bool.not_false]

/-- One level more: the gathered items are merged already, and those apart by induction. -/
theorem absorbs_succ (absorbs : Absorbs count) : Absorbs (count + 1) := by
  intro first second
  induction first using apart_induction generalizing second with
  | nil => rw [mergeLevels_nil]
  | cons item rest ih =>
    -- Nothing that was merged apart can join the first item when it is merged again.
    have gathered : item.target.alike (mergeLevels (count + 1) (item.target.apart rest)) = [] :=
      alike_mergeLevels_apart absorbs
    have others : item.target.apart (mergeLevels (count + 1) (item.target.apart rest)) =
        mergeLevels (count + 1) (item.target.apart rest) :=
      apart_mergeLevels_apart absorbs
    rw [mergeLevels_cons absorbs, List.cons_append, mergeLevels_cons absorbs, target_gather,
      gather_gather _ absorbs, alike_append, gathered, List.nil_append, ← alike_append,
      apart_append, others, ih, ← apart_append, List.cons_append, mergeLevels_cons absorbs]

theorem absorbs : ∀ count, Absorbs count
  | 0 => fun _ _ => rfl
  | count + 1 => absorbs_succ (absorbs count)

theorem height_eq (item : Selection) : item.height = levels item.selections + 1 := by
  cases item
  rw [height]

theorem levels_le_iff :
    levels items ≤ count ↔ ∀ item ∈ items, levels item.selections + 1 ≤ count := by
  induction items with
  | nil => simp [levels]
  | cons item rest ih => rw [levels, height_eq, Nat.max_le, ih, List.forall_mem_cons]

/-- The selections of items stand one level below them. -/
theorem levels_children_le (bound : levels items ≤ count + 1) :
    levels (children items) ≤ count := by
  rw [levels_le_iff] at bound ⊢
  intro child member
  obtain ⟨item, inside, under⟩ := List.mem_flatMap.mp member
  have limit : levels item.selections ≤ count := by
    have := bound item inside
    omega
  exact levels_le_iff.mp limit child under

theorem levels_subset_le (bound : levels items ≤ count) (subset : group ⊆ items) :
    levels group ≤ count := by
  rw [levels_le_iff] at bound ⊢
  intro item member
  exact bound item (subset member)

theorem cons_alike_subset : item :: item.target.alike rest ⊆ item :: rest :=
  List.cons_subset_cons item List.filter_sublist.subset

theorem apart_subset : target.apart rest ⊆ item :: rest :=
  List.subset_cons_of_subset item List.filter_sublist.subset

theorem levels_append (first second : List Selection) :
    levels (first ++ second) = max (levels first) (levels second) := by
  induction first with
  | nil => simp [levels]
  | cons item rest ih => rw [List.cons_append, levels, levels, ih, Nat.max_assoc]

theorem eq_nil_of_levels (bound : levels items ≤ 0) : items = [] := by
  rw [levels_le_iff] at bound
  apply List.eq_nil_iff_forall_not_mem.mpr
  intro item member
  have := bound item member
  omega

/-- More levels than there are make no difference. -/
theorem mergeLevels_enough {first second : Nat} (enough : levels items ≤ first)
    (enough' : levels items ≤ second) : mergeLevels first items = mergeLevels second items := by
  induction first generalizing second items with
  | zero =>
    rw [eq_nil_of_levels enough, mergeLevels_nil, mergeLevels_nil]
  | succ first ih =>
    cases second with
    | zero => rw [eq_nil_of_levels enough', mergeLevels_nil, mergeLevels_nil]
    | succ second =>
      induction items using apart_induction with
      | nil => rw [mergeLevels_nil, mergeLevels_nil]
      | cons item rest ih' =>
        have under := ih (levels_children_le (levels_subset_le enough cons_alike_subset))
          (levels_children_le (levels_subset_le enough' cons_alike_subset))
        have others := ih' (levels_subset_le enough apart_subset)
          (levels_subset_le enough' apart_subset)
        rw [mergeLevels_cons (absorbs first), mergeLevels_cons (absorbs second), others, gather,
          gather, under]

theorem mergeLevels_eq_merge (enough : levels items ≤ count) :
    mergeLevels count items = merge items :=
  mergeLevels_enough enough (Nat.le_refl _)

end Levels

@[simp]
theorem merge_nil : merge [] = [] :=
  rfl

theorem merge_cons (item : Selection) (rest : List Selection) :
    merge (item :: rest) =
      item.gather merge (item.target.alike rest) :: merge (item.target.apart rest) := by
  obtain ⟨count, depth⟩ : ∃ count, levels (item :: rest) = count + 1 := by
    apply Nat.exists_eq_add_one.mpr
    rw [levels, height_eq]
    omega
  have bound : levels (item :: rest) ≤ count + 1 := Nat.le_of_eq depth
  have under : mergeLevels count (children (item :: item.target.alike rest)) =
      merge (children (item :: item.target.alike rest)) :=
    mergeLevels_eq_merge (levels_children_le (levels_subset_le bound cons_alike_subset))
  have others : mergeLevels (count + 1) (item.target.apart rest) = merge (item.target.apart rest) :=
    mergeLevels_eq_merge (levels_subset_le bound apart_subset)
  rw [← mergeLevels_eq_merge bound, mergeLevels_cons (absorbs count), others, gather, under]
  rfl

section

variable (together : ∀ first ∈ items, ∀ second ∈ items, first.target.same second.target = true)

include together

/-- Items with one target are merged to one. -/
theorem merge_of_together :
    items = [] ∨ ∃ item rest, items = item :: rest ∧ merge items = [item.gather merge rest] := by
  match items with
  | [] => exact .inl rfl
  | item :: rest =>
    have same : ∀ other ∈ rest, item.target.same other.target = true := fun other member =>
      together item (List.mem_cons_self ..) other (List.mem_cons_of_mem _ member)
    have alike : item.target.alike rest = rest := List.filter_eq_self.mpr same
    have apart : item.target.apart rest = [] := by
      rw [Target.apart, List.filter_eq_nil_iff]
      intro other member
      simp [same other member]
    exact .inr ⟨item, rest, rfl, by rw [merge_cons, alike, apart, merge_nil]⟩

theorem children_merge_of_together : children (merge items) = merge (children items) := by
  rcases merge_of_together together with none | ⟨item, rest, group, merged⟩
  · rw [none]
    rfl
  · rw [merged, group, children_cons, selections_gather]
    exact List.append_nil _

end

theorem exists_target_of_mem_merge (member : other ∈ merge items) :
    ∃ source ∈ items, source.target = other.target := by
  rw [← mergeLevels_eq_merge (Nat.le_succ _)] at member
  exact exists_target_of_mem (absorbs _) member

theorem levels_mergeLevels_le (count : Nat) (items : List Selection) :
    levels (mergeLevels count items) ≤ count := by
  induction count generalizing items with
  | zero => exact Nat.le_refl 0
  | succ count ih =>
    induction items using apart_induction with
    | nil => exact Nat.zero_le _
    | cons item rest ih' =>
      rw [mergeLevels_cons (absorbs count), levels, height_eq]
      exact Nat.max_le.mpr ⟨Nat.succ_le_succ (ih _), ih'⟩

/-- Merging again what was merged before makes no difference. -/
theorem merge_append (first second : List Selection) :
    merge (merge first ++ second) = merge (first ++ second) := by
  let count := max (levels first) (levels second)
  have enough : levels first ≤ count := Nat.le_max_left ..
  have enough' : levels second ≤ count := Nat.le_max_right ..
  have together : levels (first ++ second) ≤ count := Nat.le_of_eq (levels_append first second)
  have again : levels (mergeLevels count first ++ second) ≤ count := by
    rw [levels_append]
    exact Nat.max_le.mpr ⟨levels_mergeLevels_le count first, enough'⟩
  calc merge (merge first ++ second)
      = merge (mergeLevels count first ++ second) := by rw [mergeLevels_eq_merge enough]
    _ = mergeLevels count (mergeLevels count first ++ second) := (mergeLevels_eq_merge again).symm
    _ = mergeLevels count (first ++ second) := absorbs count first second
    _ = merge (first ++ second) := mergeLevels_eq_merge together

/-- Merging takes the items one by one and lets each go to the first one with its target. -/
theorem merge_eq_foldl (items : List Selection) :
    merge items = items.foldl (fun merged item => place merge item merged) [] := by
  induction items using apart_induction with
  | nil => rfl
  | cons item rest ih =>
    rw [merge_cons, ih, List.foldl_cons, place, ← gather_nil, foldl_place, target_gather,
      foldl_absorb merge merge_append, List.nil_append]

theorem nodes_eq (item : Selection) : item.nodes = nodesOfList item.selections + 1 := by
  cases item
  rw [nodes]

theorem nodesOfList_append (first second : List Selection) :
    nodesOfList (first ++ second) = nodesOfList first + nodesOfList second := by
  induction first with
  | nil => simp [nodesOfList]
  | cons item rest ih => rw [List.cons_append, nodesOfList, nodesOfList, ih, Nat.add_assoc]

theorem nodesOfList_sublist (part : group.Sublist items) :
    nodesOfList group ≤ nodesOfList items := by
  induction part with
  | slnil => exact Nat.le_refl _
  | cons item _ ih => exact Nat.le_trans ih (Nat.le_add_left ..)
  | cons_cons item _ ih => exact Nat.add_le_add_left ih _

theorem nodesOfList_children_le (items : List Selection) :
    nodesOfList (children items) ≤ nodesOfList items := by
  induction items with
  | nil => exact Nat.le_refl _
  | cons item rest ih =>
    rw [children_cons, nodesOfList_append, nodesOfList, nodes_eq]
    omega

/-- Induction on what is merged: the selections of the first item and of those with its target, and
the items apart. -/
theorem merge_induction {motive : List Selection → Prop} (nil : motive [])
    (cons : ∀ item rest, motive (children (item :: item.target.alike rest)) →
      motive (item.target.apart rest) → motive (item :: rest)) (items) : motive items :=
  match items with
  | [] => nil
  | item :: rest =>
    cons item rest (merge_induction nil cons (children (item :: item.target.alike rest)))
      (merge_induction nil cons (item.target.apart rest))
termination_by nodesOfList items
decreasing_by
  · have group : nodesOfList (children (item.target.alike rest)) ≤ nodesOfList rest :=
      Nat.le_trans (nodesOfList_children_le _) (nodesOfList_sublist List.filter_sublist)
    rw [children_cons, nodesOfList_append, nodesOfList, nodes_eq]
    omega
  · have others : nodesOfList (item.target.apart rest) ≤ nodesOfList rest :=
      nodesOfList_sublist List.filter_sublist
    rw [nodesOfList, nodes_eq]
    omega

end GridQuery.Selection
