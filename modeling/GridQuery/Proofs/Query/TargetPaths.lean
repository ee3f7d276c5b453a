import GridQuery.Proofs.Condition.UpToOrder
import GridQuery.Proofs.Query.Merge

/-!
Target paths lead from the top of a selection set down to an item. Merging keeps the target paths,
leaves one item for each, gives it the arguments set last and keeps the order of first occurrences.
-/

namespace GridQuery.Selection

/-- An item with the targets from the top down to it. -/
structure Visit where
  path : List Target
  item : Selection

def Visit.above (target : Target) (visit : Visit) : Visit :=
  ⟨target :: visit.path, visit.item⟩

mutual

def visits : Selection → List Visit
  | ⟨field, name, path, filter, orderBy, limit, offset, distinctOn, selections⟩ =>
    ⟨[⟨field, name, path, filter⟩],
      ⟨field, name, path, filter, orderBy, limit, offset, distinctOn, selections⟩⟩ ::
        (walk selections).map (Visit.above ⟨field, name, path, filter⟩)

/-- All items in pre-order. -/
def walk : List Selection → List Visit
  | [] => []
  | item :: rest => visits item ++ walk rest

end

def samePath : List Target → List Target → Bool
  | [], [] => true
  | left :: lefts, right :: rights => left.same right && samePath lefts rights
  | _, _ => false

/-- The items on a target path. -/
def itemsOn (path : List Target) (visits : List Visit) : List Selection :=
  (visits.filter fun visit => samePath path visit.path).map Visit.item

/-- How many items come before the first one on a target path. -/
def firstOn (path : List Target) (visits : List Visit) : Nat :=
  visits.findIdx fun visit => samePath path visit.path

/-- The items that stand side by side under a target path. -/
structure Level where
  path : List Target
  items : List Selection

def siblings (items : List Selection) : List Level :=
  ⟨[], items⟩ :: (walk items).map fun visit => ⟨visit.path, visit.item.selections⟩

/-- Whether the filter has its entries in order. -/
def Target.Ordered (target : Target) : Prop :=
  ∀ condition ∈ target.filter, condition.Ordered

/-- Whether all filters have their entries in order, as every filter that is read has. -/
def OrderedFilters (items : List Selection) : Prop :=
  ∀ visit ∈ walk items, ∀ target ∈ visit.path, target.Ordered

variable {item : Selection} {target other : Target} {path path' : List Target} {visit : Visit}
variable {items rest : List Selection}

theorem walk_cons (item : Selection) (rest : List Selection) :
    walk (item :: rest) = ⟨[item.target], item⟩ ::
      ((walk item.selections).map (Visit.above item.target) ++ walk rest) := by
  cases item
  rw [walk, visits]
  rfl

theorem walk_append (first second : List Selection) :
    walk (first ++ second) = walk first ++ walk second := by
  induction first with
  | nil => rfl
  | cons item rest ih => rw [List.cons_append, walk, walk, ih, List.append_assoc]

theorem mem_walk_of_mem (member : item ∈ items) : ⟨[item.target], item⟩ ∈ walk items := by
  induction items with
  | nil => cases member
  | cons first rest ih =>
    rw [walk_cons]
    rcases List.mem_cons.mp member with rfl | later
    · exact List.mem_cons_self ..
    · exact List.mem_cons_of_mem _ (List.mem_append_right _ (ih later))

theorem mem_walk_of_inner (member : item ∈ items) (inner : visit ∈ walk item.selections) :
    visit.above item.target ∈ walk items := by
  induction items with
  | nil => cases member
  | cons first rest ih =>
    rw [walk_cons]
    refine List.mem_cons_of_mem _ (List.mem_append.mpr ?_)
    rcases List.mem_cons.mp member with rfl | later
    · exact .inl (List.mem_map_of_mem inner)
    · exact .inr (ih later)

theorem exists_start_of_mem_walk (member : visit ∈ walk items) :
    ∃ item ∈ items, ∃ path, visit.path = item.target :: path := by
  induction items with
  | nil => cases member
  | cons item rest ih =>
    rw [walk_cons, List.mem_cons, List.mem_append, List.mem_map] at member
    rcases member with rfl | ⟨inner, _, rfl⟩ | later
    · exact ⟨item, List.mem_cons_self .., [], rfl⟩
    · exact ⟨item, List.mem_cons_self .., inner.path, rfl⟩
    · obtain ⟨start, inside, starts⟩ := ih later
      exact ⟨start, List.mem_cons_of_mem _ inside, starts⟩

theorem path_ne_nil (member : visit ∈ walk items) : visit.path ≠ [] := by
  obtain ⟨_, _, _, starts⟩ := exists_start_of_mem_walk member
  rw [starts]
  exact List.cons_ne_nil _ _

theorem exists_start_of_mem_siblings {level : Level} (member : level ∈ siblings items)
    (inside : item ∈ level.items) :
    ∃ start ∈ items, ∃ path, level.path ++ [item.target] = start.target :: path := by
  rcases List.mem_cons.mp member with rfl | under
  · exact ⟨item, inside, [], rfl⟩
  · obtain ⟨visit, visited, rfl⟩ := List.mem_map.mp under
    obtain ⟨start, found, path, starts⟩ := exists_start_of_mem_walk visited
    exact ⟨start, found, path ++ [item.target], by simp [starts]⟩

theorem mem_siblings_cons {level : Level} (member : level ∈ siblings (item :: rest)) :
    level = ⟨[], item :: rest⟩ ∨
      (∃ inner ∈ siblings item.selections, level = ⟨item.target :: inner.path, inner.items⟩) ∨
        level ∈ siblings rest := by
  rw [siblings, walk_cons, List.mem_cons, List.map_cons, List.mem_cons, List.map_append,
    List.mem_append, List.map_map] at member
  rcases member with rfl | rfl | under | later
  · exact .inl rfl
  · exact .inr (.inl ⟨⟨[], item.selections⟩, List.mem_cons_self .., rfl⟩)
  · obtain ⟨visit, inside, rfl⟩ := List.mem_map.mp under
    exact .inr (.inl ⟨⟨visit.path, visit.item.selections⟩,
      List.mem_cons_of_mem _ (List.mem_map_of_mem inside), rfl⟩)
  · exact .inr (.inr (List.mem_cons_of_mem _ later))

/-- What is left of a visit below the items with a target. -/
def Target.inside (target : Target) (visit : Visit) : Option Visit :=
  match visit.path with
  | first :: second :: rest =>
    if target.same first then some ⟨second :: rest, visit.item⟩ else none
  | _ => none

/-- A visit if it does not start at an item with a target. -/
def Target.outside (target : Target) (visit : Visit) : Option Visit :=
  match visit.path with
  | first :: _ => if target.same first then none else some visit
  | [] => none

theorem filterMap_outside_above (visits : List Visit) :
    (visits.map (Visit.above other)).filterMap target.outside =
      if target.same other then [] else visits.map (Visit.above other) := by
  have outside : ∀ visit : Visit,
      target.outside (visit.above other) =
        if target.same other then none else some (visit.above other) := fun _ => rfl
  induction visits with
  | nil => simp
  | cons visit rest ih =>
    rw [List.map_cons, List.filterMap_cons, outside, ih]
    cases target.same other <;> rfl

theorem filterMap_inside_above {visits : List Visit}
    (nonempty : ∀ visit ∈ visits, visit.path ≠ []) :
    (visits.map (Visit.above other)).filterMap target.inside =
      if target.same other then visits else [] := by
  induction visits with
  | nil => simp
  | cons visit rest ih =>
    obtain ⟨here, later⟩ := List.forall_mem_cons.mp nonempty
    have inside : target.inside (visit.above other) =
        if target.same other then some visit else none := by
      obtain ⟨path, item⟩ := visit
      cases path with
      | nil => exact absurd rfl here
      | cons first rest => rfl
    rw [List.map_cons, List.filterMap_cons, inside, ih later]
    cases target.same other <;> rfl

/-- The visits of the items apart are those that start apart. -/
theorem walk_apart (target : Target) (items : List Selection) :
    walk (target.apart items) = (walk items).filterMap target.outside := by
  induction items with
  | nil => rfl
  | cons item rest ih =>
    have first : target.outside ⟨[item.target], item⟩ =
        if target.same item.target then none else some ⟨[item.target], item⟩ := rfl
    rw [walk_cons, List.filterMap_cons, List.filterMap_append, filterMap_outside_above, ← ih, first]
    cases same : target.same item.target with
    | true => simp [Target.apart, same]
    | false => simp [Target.apart, same, walk_cons]

/-- The visits of the selections of the items with a target are those below it. -/
theorem walk_children_alike (target : Target) (items : List Selection) :
    walk (children (target.alike items)) = (walk items).filterMap target.inside := by
  induction items with
  | nil => rfl
  | cons item rest ih =>
    have first : target.inside ⟨[item.target], item⟩ = none := rfl
    rw [walk_cons, List.filterMap_cons, List.filterMap_append,
      filterMap_inside_above fun _ => path_ne_nil, ← ih, first]
    cases same : target.same item.target with
    | true => simp [Target.alike, same, children_cons, walk_append]
    | false => simp [Target.alike, same]

theorem itemsOn_cons (path : List Target) (visit : Visit) (rest : List Visit) :
    itemsOn path (visit :: rest) =
      if samePath path visit.path then visit.item :: itemsOn path rest else itemsOn path rest := by
  rw [itemsOn, List.filter_cons]
  split <;> rfl

theorem itemsOn_append (path : List Target) (first second : List Visit) :
    itemsOn path (first ++ second) = itemsOn path first ++ itemsOn path second := by
  rw [itemsOn, List.filter_append, List.map_append, itemsOn, itemsOn]

theorem itemsOn_nil (items : List Selection) : itemsOn [] (walk items) = [] := by
  rw [itemsOn, List.map_eq_nil_iff, List.filter_eq_nil_iff]
  intro visit member
  obtain ⟨start, _, path, starts⟩ := exists_start_of_mem_walk member
  rw [starts]
  exact Bool.false_ne_true

theorem itemsOn_single_above {visits : List Visit} (nonempty : ∀ visit ∈ visits, visit.path ≠ []) :
    itemsOn [target] (visits.map (Visit.above other)) = [] := by
  rw [itemsOn, List.map_eq_nil_iff, List.filter_eq_nil_iff]
  intro visit member
  obtain ⟨inner, inside, rfl⟩ := List.mem_map.mp member
  obtain ⟨first, path, starts⟩ := List.exists_cons_of_ne_nil (nonempty inner inside)
  simp [Visit.above, starts, samePath]

theorem itemsOn_single (target : Target) (items : List Selection) :
    itemsOn [target] (walk items) = target.alike items := by
  induction items with
  | nil => rfl
  | cons item rest ih =>
    rw [walk_cons, itemsOn_cons, itemsOn_append, itemsOn_single_above fun _ => path_ne_nil, ih]
    simp [Target.alike, samePath, List.filter_cons]

theorem firstOn_cons (path : List Target) (visit : Visit) (rest : List Visit) :
    firstOn path (visit :: rest) =
      if samePath path visit.path then 0 else firstOn path rest + 1 := by
  rw [firstOn, List.findIdx_cons]
  cases samePath path visit.path <;> rfl

/-- Whether the visits on one path are those that are kept on another path. -/
def Follows (keep : Visit → Option Visit) (path path' : List Target) (visits : List Visit) : Prop :=
  ∀ visit ∈ visits, samePath path visit.path = (keep visit).any fun kept => samePath path' kept.path

section Follows

variable {keep : Visit → Option Visit} {visits : List Visit}

theorem itemsOn_filterMap (keeps : ∀ visit kept, keep visit = some kept → kept.item = visit.item)
    (follows : Follows keep path path' visits) :
    itemsOn path' (visits.filterMap keep) = itemsOn path visits := by
  induction visits with
  | nil => rfl
  | cons visit rest ih =>
    obtain ⟨here, later⟩ := List.forall_mem_cons.mp follows
    rw [List.filterMap_cons, itemsOn_cons path, here]
    cases kept : keep visit with
    | none => simpa using ih later
    | some left => simp [itemsOn_cons, ih later, keeps visit left kept]

theorem firstOn_filterMap {first second first' second' : List Target}
    (follows : Follows keep first first' visits) (follows' : Follows keep second second' visits) :
    firstOn first' (visits.filterMap keep) < firstOn second' (visits.filterMap keep) ↔
      firstOn first visits < firstOn second visits := by
  induction visits with
  | nil => rfl
  | cons visit rest ih =>
    obtain ⟨here, later⟩ := List.forall_mem_cons.mp follows
    obtain ⟨here', later'⟩ := List.forall_mem_cons.mp follows'
    have ih := ih later later'
    rw [List.filterMap_cons, firstOn_cons first, firstOn_cons second, here, here']
    cases kept : keep visit with
    | none => simpa using ih
    | some left =>
      simp only [firstOn_cons, Option.any_some]
      split <;> split <;> omega

end Follows

theorem inside_eq_some {kept : Visit} (inside : target.inside visit = some kept) :
    ∃ first, visit.path = first :: kept.path ∧ target.same first = true ∧
      visit.item = kept.item := by
  obtain ⟨path, item⟩ := visit
  match path with
  | [] => cases inside
  | [first] => cases inside
  | first :: second :: rest =>
    simp only [Target.inside, Option.ite_none_right_eq_some, Option.some.injEq] at inside
    obtain ⟨same, rfl⟩ := inside
    exact ⟨first, rfl, same, rfl⟩

theorem outside_eq_some {kept : Visit} (outside : target.outside visit = some kept) :
    kept = visit := by
  obtain ⟨path, item⟩ := visit
  match path with
  | [] => cases outside
  | first :: rest =>
    simp only [Target.outside, Option.ite_none_left_eq_some, Option.some.injEq] at outside
    exact outside.2.symm

theorem follows_inside (nonempty : path ≠ []) (visits : List Visit) :
    Follows target.inside (target :: path) path visits := by
  rintro ⟨found, item⟩ _
  match found with
  | [] => rfl
  | [first] => cases path <;> simp_all [samePath, Target.inside]
  | first :: second :: rest =>
    cases same : target.same first <;> simp [samePath, Target.inside, same]

/-- What lies further along a target path lies along the rest of it, among the selections of the
items that it starts with. -/
theorem itemsOn_below (nonempty : path ≠ []) :
    itemsOn (target :: path) (walk items) =
      itemsOn path (walk (children (target.alike items))) := by
  rw [walk_children_alike]
  refine (itemsOn_filterMap ?_ (follows_inside nonempty _)).symm
  intro visit kept inside
  obtain ⟨_, _, _, same⟩ := inside_eq_some inside
  exact same.symm

/-- A target with its filter up to order. -/
def Target.kind (target : Target) :
    String × Option String × Option String × Option (Quot Condition.Same) :=
  (target.field, target.name, target.path, target.filter.map (Quot.mk Condition.Same))

theorem Target.same_iff (ordered : target.Ordered) (ordered' : other.Ordered) :
    target.same other = true ↔ target.kind = other.kind := by
  obtain ⟨field, name, path, filter⟩ := target
  obtain ⟨otherField, otherName, otherPath, otherFilter⟩ := other
  cases filter with
  | none => cases otherFilter <;> simp [Target.same, Target.kind, and_assoc]
  | some filter =>
    cases otherFilter with
    | none => simp [Target.same, Target.kind]
    | some otherFilter =>
      have decided := Condition.hereditary_decides.condition filter (ordered filter rfl) otherFilter
        (ordered' otherFilter rfl)
      simp [Target.same, Target.kind, decided, Quot.eq, Condition.same_equivalence.eqvGen_iff,
        and_assoc]

theorem Target.same_comm (ordered : target.Ordered) (ordered' : other.Ordered) :
    target.same other = other.same target := by
  rw [Bool.eq_iff_iff, Target.same_iff ordered ordered', Target.same_iff ordered' ordered, eq_comm]

/-- What lies on a path that starts apart from a target is found among the visits apart. -/
theorem follows_outside {visits : List Visit} (ordered : target.Ordered) (ordered' : other.Ordered)
    (orderedVisits : ∀ visit ∈ visits, ∀ target ∈ visit.path, target.Ordered)
    (differs : target.same other = false) :
    Follows target.outside (other :: path) (other :: path) visits := by
  intro visit member
  have orderedPath := orderedVisits visit member
  match found : visit.path with
  | [] => simp [samePath, Target.outside, found]
  | first :: rest =>
    cases same : target.same first with
    | false => simp [Target.outside, found, same]
    | true =>
      have orderedFirst : first.Ordered := orderedPath first (found ▸ List.mem_cons_self ..)
      have apart : other.same first = false := by
        rw [Target.same_iff ordered orderedFirst] at same
        rw [← differs, Bool.eq_iff_iff, Target.same_iff ordered' orderedFirst,
          Target.same_iff ordered ordered', ← same, eq_comm]
      simp [samePath, Target.outside, found, same, apart]

section Step

variable (ordered : OrderedFilters (item :: rest))

include ordered

theorem ordered_start {start : Selection} (member : start ∈ item :: rest) :
    start.target.Ordered :=
  ordered _ (mem_walk_of_mem member) _ (List.mem_singleton_self _)

theorem start_same : item.target.same item.target = true := by
  have start := ordered_start ordered (List.mem_cons_self ..)
  exact (Target.same_iff start start).mpr rfl

theorem differs_start {start : Selection} (apart : start ∈ item.target.apart rest) :
    start.target.same item.target = false := by
  obtain ⟨member, differs⟩ := mem_apart.mp apart
  rw [← differs]
  exact Target.same_comm (ordered_start ordered (List.mem_cons_of_mem _ member))
    (ordered_start ordered (List.mem_cons_self ..))

theorem alike_start : item.target.alike (item :: rest) = item :: item.target.alike rest :=
  List.filter_cons_of_pos (start_same ordered)

theorem walk_gathered :
    walk (children (item :: item.target.alike rest)) =
      (walk (item :: rest)).filterMap item.target.inside := by
  rw [← walk_children_alike, alike_start ordered]

theorem walk_others :
    walk (item.target.apart rest) = (walk (item :: rest)).filterMap item.target.outside := by
  rw [← walk_apart]
  simp [Target.apart, start_same ordered]

theorem ordered_gathered : OrderedFilters (children (item :: item.target.alike rest)) := by
  intro visit member target inside
  rw [walk_gathered ordered] at member
  obtain ⟨source, visited, kept⟩ := List.mem_filterMap.mp member
  obtain ⟨first, path, _⟩ := inside_eq_some kept
  exact ordered source visited target (path ▸ List.mem_cons_of_mem first inside)

theorem ordered_others : OrderedFilters (item.target.apart rest) := by
  intro visit member
  rw [walk_others ordered] at member
  obtain ⟨source, visited, kept⟩ := List.mem_filterMap.mp member
  obtain rfl := outside_eq_some kept
  exact ordered visit visited

theorem itemsOn_gathered (nonempty : path ≠ []) :
    itemsOn (item.target :: path) (walk (item :: rest)) =
      itemsOn path (walk (children (item :: item.target.alike rest))) := by
  rw [itemsOn_below nonempty, alike_start ordered]

theorem firstOn_gathered (nonempty : path ≠ []) (nonempty' : path' ≠ []) :
    firstOn (item.target :: path) (walk (item :: rest)) <
        firstOn (item.target :: path') (walk (item :: rest)) ↔
      firstOn path (walk (children (item :: item.target.alike rest))) <
        firstOn path' (walk (children (item :: item.target.alike rest))) := by
  rw [walk_gathered ordered]
  exact (firstOn_filterMap (follows_inside nonempty _) (follows_inside nonempty' _)).symm

theorem follows_others {start : Selection} (apart : start ∈ item.target.apart rest) :
    Follows item.target.outside (start.target :: path) (start.target :: path)
      (walk (item :: rest)) := by
  obtain ⟨member, differs⟩ := mem_apart.mp apart
  exact follows_outside (ordered_start ordered (List.mem_cons_self ..))
    (ordered_start ordered (List.mem_cons_of_mem _ member)) ordered differs

theorem itemsOn_others {start : Selection} (apart : start ∈ item.target.apart rest) :
    itemsOn (start.target :: path) (walk (item :: rest)) =
      itemsOn (start.target :: path) (walk (item.target.apart rest)) := by
  rw [walk_others ordered]
  refine (itemsOn_filterMap ?_ (follows_others ordered apart)).symm
  intro visit kept outside
  rw [outside_eq_some outside]

theorem firstOn_others {first second : Selection} (apart : first ∈ item.target.apart rest)
    (apart' : second ∈ item.target.apart rest) :
    firstOn (first.target :: path) (walk (item :: rest)) <
        firstOn (second.target :: path') (walk (item :: rest)) ↔
      firstOn (first.target :: path) (walk (item.target.apart rest)) <
        firstOn (second.target :: path') (walk (item.target.apart rest)) := by
  rw [walk_others ordered]
  exact (firstOn_filterMap (follows_others ordered apart) (follows_others ordered apart')).symm

end Step

theorem mem_walk_merge_cons :
    visit ∈ walk (merge (item :: rest)) ↔
      visit = ⟨[item.target], item.gather merge (item.target.alike rest)⟩ ∨
        (∃ inner ∈ walk (merge (children (item :: item.target.alike rest))),
          visit = inner.above item.target) ∨
        visit ∈ walk (merge (item.target.apart rest)) := by
  rw [merge_cons, walk_cons, List.mem_cons, List.mem_append, List.mem_map]
  simp only [target_gather, selections_gather, eq_comm]

theorem mem_siblings_merge_cons {level : Level} (member : level ∈ siblings (merge (item :: rest))) :
    level = ⟨[], item.gather merge (item.target.alike rest) :: merge (item.target.apart rest)⟩ ∨
      (∃ inner ∈ siblings (merge (children (item :: item.target.alike rest))),
        level = ⟨item.target :: inner.path, inner.items⟩) ∨
      level ∈ siblings (merge (item.target.apart rest)) := by
  rw [merge_cons] at member
  exact mem_siblings_cons member

/-- No two siblings have the same target. -/
theorem merge_distinct (items : List Selection) :
    ∀ level ∈ siblings (merge items),
      level.items.Pairwise fun first second => first.target.same second.target = false := by
  induction items using merge_induction with
  | nil => simp [siblings, walk]
  | cons item rest gathered others =>
    intro level member
    rcases mem_siblings_merge_cons member with rfl | ⟨inner, inside, rfl⟩ | later
    · refine List.pairwise_cons.mpr ⟨?_, others ⟨[], _⟩ (List.mem_cons_self ..)⟩
      intro other inMerged
      obtain ⟨source, inApart, same⟩ := exists_target_of_mem_merge inMerged
      rw [← same]
      exact (mem_apart.mp inApart).2
    · exact gathered inner inside
    · exact others level later

/-- Every target path of the result is one of the items. -/
theorem merge_adds_nothing (items : List Selection) (ordered : OrderedFilters items) :
    ∀ visit ∈ walk (merge items), ∃ source ∈ walk items,
      samePath visit.path source.path = true := by
  induction items using merge_induction with
  | nil => simp [walk]
  | cons item rest gathered others =>
    have gathered := gathered (ordered_gathered ordered)
    have others := others (ordered_others ordered)
    rw [walk_gathered ordered] at gathered
    rw [walk_others ordered] at others
    intro visit member
    rcases mem_walk_merge_cons.mp member with rfl | ⟨inner, inside, rfl⟩ | later
    · refine ⟨_, mem_walk_of_mem (List.mem_cons_self ..), ?_⟩
      simp [samePath, start_same ordered]
    · obtain ⟨kept, visited, same⟩ := gathered inner inside
      obtain ⟨source, visited, kept⟩ := List.mem_filterMap.mp visited
      obtain ⟨first, path, near, _⟩ := inside_eq_some kept
      refine ⟨source, visited, ?_⟩
      simp [Visit.above, path, samePath, near, same]
    · obtain ⟨kept, visited, same⟩ := others visit later
      obtain ⟨source, visited, kept⟩ := List.mem_filterMap.mp visited
      obtain rfl := outside_eq_some kept
      exact ⟨_, visited, same⟩

theorem mem_walk_children_of_subset {group : List Selection} (subset : group ⊆ items)
    (member : visit ∈ walk (children group)) :
    ∃ source ∈ walk items, visit.path ⊆ source.path := by
  induction group with
  | nil => cases member
  | cons first rest ih =>
    rw [children_cons, walk_append, List.mem_append] at member
    rcases member with inner | later
    · refine ⟨visit.above first.target, ?_, List.subset_cons_self ..⟩
      exact mem_walk_of_inner (subset (List.mem_cons_self ..)) inner
    · exact ih (fun _ inside => subset (List.mem_cons_of_mem _ inside)) later

/-- Merging makes no new targets. -/
theorem exists_source_of_mem_walk_merge :
    ∀ visit ∈ walk (merge items), ∀ target ∈ visit.path,
      ∃ source ∈ walk items, target ∈ source.path := by
  induction items using merge_induction with
  | nil => simp [walk]
  | cons item rest gathered others =>
    intro visit member target inside
    rcases mem_walk_merge_cons.mp member with rfl | ⟨inner, visited, rfl⟩ | later
    · exact ⟨_, mem_walk_of_mem (List.mem_cons_self ..), inside⟩
    · rcases List.mem_cons.mp inside with rfl | below
      · exact ⟨_, mem_walk_of_mem (List.mem_cons_self ..), List.mem_singleton_self _⟩
      · obtain ⟨kept, found, below⟩ := gathered inner visited target below
        obtain ⟨source, found, subset⟩ := mem_walk_children_of_subset cons_alike_subset found
        exact ⟨source, found, subset below⟩
    · obtain ⟨kept, found, inside⟩ := others visit later target inside
      rw [walk_apart] at found
      obtain ⟨source, found, outside⟩ := List.mem_filterMap.mp found
      obtain rfl := outside_eq_some outside
      exact ⟨kept, walk_cons .. ▸ List.mem_cons_of_mem _ (List.mem_append_right _ found), inside⟩

/-- Every target path of the items is one of the result. -/
theorem merge_loses_nothing (items : List Selection) (ordered : OrderedFilters items) :
    ∀ source ∈ walk items, ∃ visit ∈ walk (merge items),
      samePath visit.path source.path = true := by
  induction items using merge_induction with
  | nil => simp [walk]
  | cons item rest gathered others =>
    have gathered := gathered (ordered_gathered ordered)
    have others := others (ordered_others ordered)
    rw [walk_gathered ordered] at gathered
    rw [walk_others ordered] at others
    intro source member
    obtain ⟨start, _, path, starts⟩ := exists_start_of_mem_walk member
    cases near : item.target.same start.target with
    | true =>
      cases path with
      | nil =>
        refine ⟨_, mem_walk_merge_cons.mpr (.inl rfl), ?_⟩
        simp [starts, samePath, near]
      | cons second path =>
        have kept : item.target.inside source = some ⟨second :: path, source.item⟩ := by
          simp [Target.inside, starts, near]
        obtain ⟨visit, visited, same⟩ := gathered _ (List.mem_filterMap.mpr ⟨source, member, kept⟩)
        refine ⟨visit.above item.target,
          mem_walk_merge_cons.mpr (.inr (.inl ⟨visit, visited, rfl⟩)), ?_⟩
        simp [Visit.above, starts, samePath, near, same]
    | false =>
      have kept : item.target.outside source = some source := by
        simp [Target.outside, starts, near]
      obtain ⟨visit, visited, same⟩ := others _ (List.mem_filterMap.mpr ⟨source, member, kept⟩)
      exact ⟨visit, mem_walk_merge_cons.mpr (.inr (.inr visited)), same⟩

/-- An argument that gathering sets to the last one is the last one on each target path. -/
theorem merge_argument {α : Type} {argument : Selection → Option α}
    (last : ∀ item group, argument (item.gather merge group) = lastSet argument (item :: group))
    (items : List Selection) (ordered : OrderedFilters items) :
    ∀ visit ∈ walk (merge items),
      argument visit.item = lastSet argument (itemsOn visit.path (walk items)) := by
  induction items using merge_induction with
  | nil => simp [walk]
  | cons item rest gathered others =>
    have gathered := gathered (ordered_gathered ordered)
    have others := others (ordered_others ordered)
    intro visit member
    rcases mem_walk_merge_cons.mp member with rfl | ⟨inner, inside, rfl⟩ | later
    · rw [itemsOn_single, last]
      simp [Target.alike, start_same ordered]
    · rw [Visit.above, itemsOn_gathered ordered (path_ne_nil inside)]
      exact gathered inner inside
    · obtain ⟨start, inMerged, path, starts⟩ := exists_start_of_mem_walk later
      obtain ⟨source, inApart, same⟩ := exists_target_of_mem_merge inMerged
      rw [others visit later, starts, ← same, itemsOn_others ordered inApart]

/-- Siblings stand in the order in which their target paths first occur in the items. -/
theorem merge_keeps_order (items : List Selection) (ordered : OrderedFilters items) :
    ∀ level ∈ siblings (merge items), level.items.Pairwise fun first second =>
      firstOn (level.path ++ [first.target]) (walk items) <
        firstOn (level.path ++ [second.target]) (walk items) := by
  induction items using merge_induction with
  | nil => simp [siblings, walk]
  | cons item rest gathered others =>
    have gathered := gathered (ordered_gathered ordered)
    have others := others (ordered_others ordered)
    -- What is set aside lies on no path that starts apart, so it does not change their order.
    have apart : ∀ level ∈ siblings (merge (item.target.apart rest)),
        level.items.Pairwise fun first second =>
          firstOn (level.path ++ [first.target]) (walk (item :: rest)) <
            firstOn (level.path ++ [second.target]) (walk (item :: rest)) := by
      intro level member
      refine (others level member).imp_of_mem ?_
      intro first second inside inside' before
      obtain ⟨start, inMerged, path, starts⟩ := exists_start_of_mem_siblings member inside
      obtain ⟨start', inMerged', path', starts'⟩ := exists_start_of_mem_siblings member inside'
      obtain ⟨source, inApart, same⟩ := exists_target_of_mem_merge inMerged
      obtain ⟨source', inApart', same'⟩ := exists_target_of_mem_merge inMerged'
      rw [starts, starts', ← same, ← same'] at before ⊢
      exact (firstOn_others ordered inApart inApart').mpr before
    intro level member
    rcases mem_siblings_merge_cons member with rfl | ⟨inner, inside, rfl⟩ | later
    · refine List.pairwise_cons.mpr ⟨?_, apart ⟨[], _⟩ (List.mem_cons_self ..)⟩
      intro other inMerged
      obtain ⟨source, inApart, same⟩ := exists_target_of_mem_merge inMerged
      have differs := differs_start ordered inApart
      -- The first item is the first visit, and only its own path ends there.
      rw [← same, walk_cons, firstOn_cons, firstOn_cons]
      simp [samePath, start_same ordered, differs]
    · refine (gathered inner inside).imp ?_
      intro first second before
      exact (firstOn_gathered ordered (by simp) (by simp)).mpr before
    · exact apart level later

/-- What merging makes of items: nothing is lost, nothing is there twice, the arguments set last
win, and the order is that of the first occurrences. -/
structure MergedFrom (items merged : List Selection) : Prop where
  distinct : ∀ level ∈ siblings merged,
    level.items.Pairwise fun first second => first.target.same second.target = false
  addsNothing : ∀ visit ∈ walk merged, ∃ source ∈ walk items,
    samePath visit.path source.path = true
  losesNothing : ∀ source ∈ walk items, ∃ visit ∈ walk merged,
    samePath visit.path source.path = true
  lastOrderBy : ∀ visit ∈ walk merged,
    visit.item.orderBy = lastSet orderBy (itemsOn visit.path (walk items))
  lastLimit : ∀ visit ∈ walk merged,
    visit.item.limit = lastSet limit (itemsOn visit.path (walk items))
  lastOffset : ∀ visit ∈ walk merged,
    visit.item.offset = lastSet offset (itemsOn visit.path (walk items))
  lastDistinctOn : ∀ visit ∈ walk merged,
    visit.item.distinctOn = lastSet distinctOn (itemsOn visit.path (walk items))
  keepsOrder : ∀ level ∈ siblings merged, level.items.Pairwise fun first second =>
    firstOn (level.path ++ [first.target]) (walk items) <
      firstOn (level.path ++ [second.target]) (walk items)

theorem merge_mergedFrom (items : List Selection) (ordered : OrderedFilters items) :
    MergedFrom items (merge items) where
  distinct := merge_distinct items
  addsNothing := merge_adds_nothing items ordered
  losesNothing := merge_loses_nothing items ordered
  lastOrderBy := merge_argument (fun _ _ => rfl) items ordered
  lastLimit := merge_argument (fun _ _ => rfl) items ordered
  lastOffset := merge_argument (fun _ _ => rfl) items ordered
  lastDistinctOn := merge_argument (fun _ _ => rfl) items ordered
  keepsOrder := merge_keeps_order items ordered

def doneTasks (conditions : List Condition) (limit : Option Nat) (selections : List Selection) :
    Selection :=
  ⟨"tasks", none, none, some (.and conditions), none, limit, none, none, selections⟩

def isDone : Condition :=
  .field "done" (.comparison ⟨.eq, .bool true⟩)

/-- The same tasks twice, with the conjuncts of their filter in either order, around a name. -/
def overlapping : List Selection :=
  [doneTasks [isDone, .empty] (some 5) [plain "title"], plain "name",
    doneTasks [.empty, isDone] (some 10) [plain "due", plain "title"]]

theorem overlapping_mergedFrom :
    OrderedFilters overlapping ∧
      MergedFrom overlapping
        [doneTasks [isDone, .empty] (some 10) [plain "title", plain "due"], plain "name"] := by
  have first : (Condition.and [isDone, .empty]).Ordered :=
    Condition.read_ordered (rfl : Read.condition (Condition.and [isDone, .empty]).toJson = .ok _)
  have second : (Condition.and [.empty, isDone]).Ordered :=
    Condition.read_ordered (rfl : Read.condition (Condition.and [.empty, isDone]).toJson = .ok _)
  have ordered : OrderedFilters overlapping := by
    simp [OrderedFilters, overlapping, doneTasks, plain, walk, visits, Visit.above, Target.Ordered,
      first, second]
  exact ⟨ordered, merge_mergedFrom overlapping ordered⟩

end GridQuery.Selection
