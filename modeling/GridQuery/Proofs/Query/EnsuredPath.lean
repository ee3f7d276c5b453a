import GridQuery.Proofs.Query.Regrouping

/-!
What becomes of a path that is put among the selections of columns. Its last field is selected in
any case, and once, without a new name, path or filter. But columns that select a field on the way
like that may give it other arguments, and then the path does not count as selected.
-/

namespace GridQuery.Selection

/-- The target of a field without anything else. -/
def Target.plain (field : String) : Target :=
  ⟨field, none, none, none⟩

/-- The target path along the segments of a path. -/
def plainSteps (path : String) : List Target :=
  (Path.ofString path).segments.map Target.plain

/-- No item on the way along the target path has arguments. -/
def ArgumentFree (path : List Target) (items : List Selection) : Prop :=
  ∀ steps, steps <+: path → ∀ item ∈ itemsOn steps (walk items), item.hasArguments = false

variable {field : String} {item : Selection} {target : Target} {path : List Target}
variable {items first second : List Selection}

theorem Target.same_plain_iff : target.same (plain field) = true ↔ target = plain field := by
  unfold plain
  obtain ⟨other, name, path, filter⟩ := target
  cases filter <;> simp [Target.same, and_assoc]

theorem Target.plain_same_iff : (plain field).same target = true ↔ target = plain field := by
  unfold plain
  obtain ⟨other, name, path, filter⟩ := target
  cases filter <;> simp [Target.same, and_assoc, @eq_comm _ field, @eq_comm _ none]

theorem mem_alike_plain :
    item ∈ (Target.plain field).alike items ↔ item ∈ items ∧ item.target = Target.plain field := by
  rw [Target.alike, List.mem_filter, Target.plain_same_iff]

/-- Unlike other targets, those without filter are told apart without their filters in order. -/
theorem respects_plain (field : String) (items : List Selection) :
    Respects (Target.plain field).same items := by
  intro first _ second _ same
  rw [Bool.eq_iff_iff, Target.plain_same_iff, Target.plain_same_iff]
  constructor
  · intro plain
    rwa [plain, Target.plain_same_iff] at same
  · intro plain
    rwa [plain, Target.same_plain_iff] at same

theorem alike_merge_plain :
    (Target.plain field).alike (merge items) = merge ((Target.plain field).alike items) :=
  kept_merge (respects_plain field items)

theorem alike_plain_together (field : String) (items : List Selection) :
    ∀ first ∈ (Target.plain field).alike items, ∀ second ∈ (Target.plain field).alike items,
      first.target.same second.target = true := by
  intro first inside second inside'
  rw [(mem_alike_plain.mp inside).2, (mem_alike_plain.mp inside').2, Target.plain_same_iff]

theorem merge_alike_plain (field : String) (items : List Selection) :
    (Target.plain field).alike items = [] ∨ ∃ item rest,
      (Target.plain field).alike items = item :: rest ∧
        merge ((Target.plain field).alike items) = [item.gather merge rest] :=
  merge_of_together (alike_plain_together field items)

theorem children_merge_plain : children ((Target.plain field).alike (merge items)) =
    merge (children ((Target.plain field).alike items)) := by
  rw [alike_merge_plain, children_merge_of_together (alike_plain_together field items)]

/-- Along plain fields, merging gathers all items at the end of the way to one. -/
theorem itemsOn_merge (field : String) (rest : List String) (items : List Selection) :
    (itemsOn ((field :: rest).map Target.plain) (walk items) = [] ∧
      itemsOn ((field :: rest).map Target.plain) (walk (merge items)) = []) ∨
    ∃ item others, itemsOn ((field :: rest).map Target.plain) (walk items) = item :: others ∧
      itemsOn ((field :: rest).map Target.plain) (walk (merge items)) =
        [item.gather merge others] := by
  induction rest generalizing field items with
  | nil =>
    rw [List.map_singleton, itemsOn_single, itemsOn_single, alike_merge_plain]
    cases merge_alike_plain field items with
    | inl none =>
      rw [none]
      exact .inl ⟨rfl, rfl⟩
    | inr some => exact .inr some
  | cons next rest ih =>
    have further : (next :: rest).map Target.plain ≠ [] := List.cons_ne_nil _ _
    rw [List.map_cons, itemsOn_below further, itemsOn_below further, children_merge_plain]
    exact ih next _

theorem argumentFree_nil (items : List Selection) : ArgumentFree [] items := by
  intro steps start
  rw [List.prefix_nil.mp start, itemsOn_nil]
  exact fun _ => nofun

/-- No arguments along a target path: none at its first step, and none further on. -/
theorem argumentFree_cons : ArgumentFree (target :: path) items ↔
    (∀ item ∈ target.alike items, item.hasArguments = false) ∧
      ArgumentFree path (children (target.alike items)) := by
  constructor
  · intro free
    constructor
    · rw [← itemsOn_single]
      exact free [target] (List.prefix_cons_iff.mpr (.inr ⟨[], rfl, List.nil_prefix⟩))
    · intro steps start item member
      by_cases here : steps = []
      · rw [here, itemsOn_nil] at member
        cases member
      · apply free (target :: steps) (List.prefix_cons_inj target |>.mpr start)
        rwa [itemsOn_below here]
  · intro free steps start item member
    obtain ⟨first, further⟩ := free
    cases List.prefix_cons_iff.mp start with
    | inl none =>
      rw [none, itemsOn_nil] at member
      cases member
    | inr some =>
      obtain ⟨steps, same, start⟩ := some
      rw [same] at member
      by_cases here : steps = []
      · rw [here, itemsOn_single] at member
        exact first item member
      · rw [itemsOn_below here] at member
        exact further steps start item member

theorem argumentFree_append :
    ArgumentFree path (first ++ second) ↔ ArgumentFree path first ∧ ArgumentFree path second := by
  simp only [ArgumentFree, walk_append, itemsOn_append, List.forall_mem_append]
  constructor
  · intro free
    exact ⟨fun steps start => (free steps start).1, fun steps start => (free steps start).2⟩
  · intro free steps start
    exact ⟨free.1 steps start, free.2 steps start⟩

theorem hasArguments_eq_false (plain : item.target = Target.plain field) :
    item.hasArguments = false ↔ item.orderBy = none ∧ item.limit = none ∧ item.offset = none ∧
      item.distinctOn = none := by
  have filter : item.filter = none := congrArg Target.filter plain
  have path : item.path = none := congrArg Target.path plain
  rw [hasArguments, filter, path]
  simp only [Option.isSome_none, Bool.false_or, Bool.or_false, Bool.or_eq_false_iff,
    Option.isSome_eq_false_iff, Option.isNone_iff_eq_none]
  tauto

/-- A gathered item has an argument if one of the items has it. -/
theorem hasArguments_gather {rest : List Selection}
    (plain : ∀ other ∈ item :: rest, other.target = Target.plain field) :
    (item.gather merge rest).hasArguments = false ↔
      ∀ other ∈ item :: rest, other.hasArguments = false := by
  have gathered : (item.gather merge rest).target = Target.plain field :=
    plain item (List.mem_cons_self ..)
  have each : (∀ other ∈ item :: rest, other.hasArguments = false) ↔
      ∀ other ∈ item :: rest, other.orderBy = none ∧ other.limit = none ∧ other.offset = none ∧
        other.distinctOn = none :=
    forall₂_congr fun other member => hasArguments_eq_false (plain other member)
  rw [hasArguments_eq_false gathered, each]
  simp only [gather, lastSet_eq_none_iff, forall_and]

theorem isPlain_iff : isPlain field item = true ↔
    item.target = Target.plain field ∧ item.hasArguments = false := by
  simp only [isPlain, target, Target.plain, hasArguments, Bool.and_eq_true, Bool.not_eq_true',
    Bool.or_eq_false_iff, decide_eq_true_eq, Option.isNone_iff_eq_none, Target.mk.injEq,
    Option.isSome_eq_false_iff]
  tauto

theorem find?_isPlain : items.find? (isPlain field) =
    ((Target.plain field).alike items).find? (isPlain field) := by
  rw [Target.alike, List.find?_filter]
  apply congrArg (List.find? · items)
  funext item
  rw [Bool.eq_iff_iff, decide_eq_true_eq, Target.plain_same_iff, isPlain_iff]
  exact ⟨fun plain => ⟨plain.1, plain⟩, And.right⟩

theorem containsSegments_iff {rest : List String} : containsSegments field rest items = true ↔
    ∃ found, items.find? (isPlain field) = some found ∧
      ∀ next more, rest = next :: more → containsSegments next more found.selections = true := by
  cases rest with
  | nil => cases found : items.find? (isPlain field) <;> simp [containsSegments, found]
  | cons next more => cases found : items.find? (isPlain field) <;> simp [containsSegments, found]

/-- Among merged items, a plain one without arguments is found if there are plain ones and none of
them has arguments. -/
theorem find?_merge_iff {found : Selection} : (merge items).find? (isPlain field) = some found ↔
    (∀ item ∈ (Target.plain field).alike items, item.hasArguments = false) ∧
      merge ((Target.plain field).alike items) = [found] := by
  rw [find?_isPlain, alike_merge_plain]
  cases merge_alike_plain field items with
  | inl none =>
    rw [none]
    exact ⟨nofun, nofun⟩
  | inr some =>
    obtain ⟨item, rest, group, merged⟩ := some
    have plain : ∀ other ∈ item :: rest, other.target = Target.plain field := by
      intro other member
      rw [← group] at member
      exact (mem_alike_plain.mp member).2
    rw [merged, group, ← hasArguments_gather plain, List.find?_singleton]
    have gathered : (item.gather merge rest).target = Target.plain field :=
      plain item (List.mem_cons_self ..)
    cases free : (item.gather merge rest).hasArguments with
    | false =>
      rw [if_pos (isPlain_iff.mpr ⟨gathered, free⟩)]
      simp
    | true =>
      rw [if_neg]
      · simp
      · intro plain
        rw [(isPlain_iff.mp plain).2] at free
        cases free

theorem exists_merge_alike_plain (some : (Target.plain field).alike items ≠ []) :
    ∃ found, merge ((Target.plain field).alike items) = [found] := by
  cases merge_alike_plain field items with
  | inl none => exact absurd none some
  | inr some =>
    obtain ⟨item, rest, _, merged⟩ := some
    exact ⟨_, merged⟩

/-- A path counts as selected among merged items if there are items for it and none on the way has
arguments. -/
theorem containsSegments_merge (field : String) (rest : List String) (items : List Selection) :
    containsSegments field rest (merge items) = true ↔
      itemsOn ((field :: rest).map Target.plain) (walk items) ≠ [] ∧
        ArgumentFree ((field :: rest).map Target.plain) items := by
  induction rest generalizing field items with
  | nil =>
    rw [containsSegments_iff, List.map_singleton, itemsOn_single, argumentFree_cons]
    constructor
    · intro contained
      obtain ⟨found, first, _⟩ := contained
      obtain ⟨free, merged⟩ := find?_merge_iff.mp first
      refine ⟨fun none => ?_, free, argumentFree_nil _⟩
      rw [none, merge_nil] at merged
      cases merged
    · intro selected
      obtain ⟨some, free, _⟩ := selected
      obtain ⟨found, merged⟩ := exists_merge_alike_plain some
      exact ⟨found, find?_merge_iff.mpr ⟨free, merged⟩, nofun⟩
  | cons next more ih =>
    have further : (next :: more).map Target.plain ≠ [] := List.cons_ne_nil _ _
    have below {found : Selection} (merged : merge ((Target.plain field).alike items) = [found]) :
        found.selections = merge (children ((Target.plain field).alike items)) := by
      rw [← children_merge_plain, alike_merge_plain, merged, children_cons]
      exact (List.append_nil _).symm
    rw [containsSegments_iff, List.map_cons, itemsOn_below further, argumentFree_cons]
    constructor
    · intro contained
      obtain ⟨found, first, beyond⟩ := contained
      obtain ⟨free, merged⟩ := find?_merge_iff.mp first
      have deeper := beyond next more rfl
      rw [below merged, ih] at deeper
      exact ⟨deeper.1, free, deeper.2⟩
    · intro selected
      obtain ⟨ends, free, deeper⟩ := selected
      have some : (Target.plain field).alike items ≠ [] := by
        intro none
        rw [none] at ends
        exact ends rfl
      obtain ⟨found, merged⟩ := exists_merge_alike_plain some
      refine ⟨found, find?_merge_iff.mpr ⟨free, merged⟩, ?_⟩
      intro next' more' same
      cases same
      rw [below merged, ih]
      exact ⟨ends, deeper⟩

theorem alike_plain_single (plain : item.target = Target.plain field) :
    (Target.plain field).alike [item] = [item] :=
  List.filter_eq_self.mpr (List.forall_mem_singleton.mpr (Target.plain_same_iff.mpr plain))

/-- A chain of plain items ends in an item. -/
theorem itemsOn_chain (field : String) (rest : List String) :
    itemsOn ((field :: rest).map Target.plain) (walk [link (plain field) (rest.map plain)]) ≠
      [] := by
  induction rest generalizing field with
  | nil =>
    rw [List.map_singleton, itemsOn_single, alike_plain_single rfl]
    exact List.cons_ne_nil _ _
  | cons next more ih =>
    have further : (next :: more).map Target.plain ≠ [] := List.cons_ne_nil _ _
    rw [List.map_cons, itemsOn_below further, alike_plain_single rfl]
    exact ih next

/-- None of its items has arguments. -/
theorem argumentFree_chain (path : List Target) (field : String) (rest : List String) :
    ArgumentFree path [link (plain field) (rest.map plain)] := by
  have free : ∀ visit ∈ walk [link (plain field) (rest.map plain)],
      visit.item.hasArguments = false := by
    induction rest generalizing field with
    | nil => exact List.forall_mem_singleton.mpr rfl
    | cons next more ih =>
      intro visit member
      rw [List.map_cons, link, walk_cons] at member
      cases List.mem_cons.mp member with
      | inl here =>
        rw [here]
        rfl
      | inr below =>
        rw [walk, List.append_nil] at below
        obtain ⟨inner, inside, above⟩ := List.mem_map.mp below
        rw [← above]
        exact ih next inner inside
  intro steps _ item member
  obtain ⟨visit, visited, same⟩ := List.mem_map.mp member
  rw [← same]
  exact free visit (List.mem_filter.mp visited).1

/-- What the items are after the path is put among them, without its being checked beforehand. -/
theorem ensurePath_merge (items : List Selection) (path : String) :
    ensurePath (merge items) path = merge items ∧ containsPath (merge items) path = true ∨
      ensurePath (merge items) path = merge (items ++ [ofPath path]) := by
  unfold ensurePath
  split
  next contained => exact .inl ⟨rfl, contained⟩
  next missing => exact .inr (merge_append items _)

/-- Where some items stand at the end of a path, one is left of them after they are merged. -/
theorem exists_itemsOn_merge {path : String}
    (some : itemsOn (plainSteps path) (walk items) ≠ []) :
    ∃ item, itemsOn (plainSteps path) (walk (merge items)) = [item] := by
  cases itemsOn_merge (Path.ofString path).first (Path.ofString path).rest items with
  | inl none => exact absurd none.1 some
  | inr some =>
    obtain ⟨item, others, _, merged⟩ := some
    exact ⟨_, merged⟩

theorem containsPath_merge_iff {path : String} : containsPath (merge items) path = true ↔
    itemsOn (plainSteps path) (walk items) ≠ [] ∧ ArgumentFree (plainSteps path) items :=
  containsSegments_merge _ _ items

theorem itemsOn_concat_ofPath (items : List Selection) (path : String) :
    itemsOn (plainSteps path) (walk (items ++ [ofPath path])) ≠ [] := by
  rw [walk_append, itemsOn_append]
  exact List.append_ne_nil_of_right_ne_nil _ (itemsOn_chain _ _)

/-- A path that was put among the selections of columns has one item at its end. -/
theorem exists_itemsOn_ensurePath (columns : List Column) (path : String) :
    ∃ item, itemsOn (plainSteps path) (walk (ensurePath (ofColumns columns) path)) = [item] := by
  change ∃ item, itemsOn (plainSteps path)
    (walk (ensurePath (merge (requested columns)) path)) = [item]
  cases ensurePath_merge (requested columns) path with
  | inl kept =>
    rw [kept.1]
    exact exists_itemsOn_merge (containsPath_merge_iff.mp kept.2).1
  | inr added =>
    rw [added]
    exact exists_itemsOn_merge (itemsOn_concat_ofPath _ path)

/-- Putting a path among the selections of columns leaves one item at its end. The path counts as
selected exactly if no field on the way that the columns select without name, path and filter has
other arguments. -/
theorem ensured_path (columns : List Column) (path : String) :
    (∃ item, itemsOn (plainSteps path) (walk (ensurePath (ofColumns columns) path)) = [item]) ∧
      (containsPath (ensurePath (ofColumns columns) path) path = true ↔
        ArgumentFree (plainSteps path) (requested columns)) := by
  refine ⟨exists_itemsOn_ensurePath columns path, ?_⟩
  change containsPath (ensurePath (merge (requested columns)) path) path = true ↔ _
  cases ensurePath_merge (requested columns) path with
  | inl kept =>
    obtain ⟨kept, contained⟩ := kept
    rw [kept]
    exact iff_of_true contained (containsPath_merge_iff.mp contained).2
  | inr added =>
    have chain : ArgumentFree (plainSteps path) [ofPath path] := argumentFree_chain _ _ _
    rw [added, containsPath_merge_iff, argumentFree_append]
    exact ⟨fun selected => selected.2.1,
      fun free => ⟨itemsOn_concat_ofPath _ path, free, chain⟩⟩

/-- A column that asks for one `id` only. -/
def limitedId : Column :=
  ⟨"id", none, [.hops [{ Hop.plain "id" with limit := some 1 }]]⟩

/-- The key is not added where a column limits it, and does not count as selected either. -/
theorem limitedId_kept :
    ensurePath (ofColumns [limitedId]) "id" = [{ plain "id" with limit := some 1 }] ∧
      containsPath (ensurePath (ofColumns [limitedId]) "id") "id" = false ∧
      ¬ ∀ (columns : List Column) (path : String),
        (∀ segment ∈ (Path.ofString path).segments, segment ≠ "") →
          containsPath (ensurePath (ofColumns columns) path) path = true := by
  have missing : containsPath (ensurePath (ofColumns [limitedId]) "id") "id" = false := rfl
  refine ⟨rfl, missing, fun selected => ?_⟩
  have found := selected [limitedId] "id" (by decide)
  rw [missing] at found
  cases found

end GridQuery.Selection
