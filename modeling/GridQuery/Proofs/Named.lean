import GridQuery.Named
import Mathlib.Data.List.Induction
import Mathlib.Data.List.Perm.Subperm

/-!
Which entries named lists have, which of them is found, and when their names are the same.
-/

namespace GridQuery.Named

variable {α : Type} {name : String} {value : α} {entries : List (String × α)} {entry : String × α}

theorem mem_of_mem_insert (member : entry ∈ insert name value entries) :
    entry = (name, value) ∨ entry ∈ entries := by
  induction entries with
  | nil => exact Or.inl (List.mem_singleton.mp member)
  | cons first rest ih =>
    obtain ⟨other, kept⟩ := first
    rw [insert] at member
    split at member
    · exact List.mem_cons.mp member
    · split at member
      · exact (List.mem_cons.mp member).imp_right (List.mem_cons_of_mem _)
      · rcases List.mem_cons.mp member with same | later
        · exact Or.inr (same ▸ List.mem_cons_self ..)
        · exact (ih later).imp_right (List.mem_cons_of_mem _)

theorem mem_of_mem_foldl_insert {table : List (String × α)}
    (member : entry ∈ entries.foldl (fun table entry => insert entry.1 entry.2 table) table) :
    entry ∈ table ∨ entry ∈ entries := by
  induction entries generalizing table with
  | nil => exact Or.inl member
  | cons first rest ih =>
    rcases ih member with early | later
    · rcases mem_of_mem_insert early with same | old
      · exact Or.inr (same ▸ List.mem_cons_self ..)
      · exact Or.inl old
    · exact Or.inr (List.mem_cons_of_mem _ later)

theorem mem_of_mem_ofList (member : entry ∈ ofList entries) : entry ∈ entries :=
  (mem_of_mem_foldl_insert member).resolve_left (List.not_mem_nil)

theorem Ascending.insert (ascending : Ascending entries) :
    Ascending (insert name value entries) := by
  induction entries with
  | nil => exact List.pairwise_singleton ..
  | cons first rest ih =>
    obtain ⟨other, kept⟩ := first
    obtain ⟨below, later⟩ := List.pairwise_cons.mp ascending
    rw [Named.insert]
    split
    next before =>
      refine List.pairwise_cons.mpr ⟨?_, ascending⟩
      intro entry member
      rcases List.mem_cons.mp member with rfl | later
      · exact before
      · exact String.lt_trans before (below entry later)
    next after =>
      split
      next same =>
        rw [same]
        exact List.pairwise_cons.mpr ⟨below, later⟩
      next differs =>
        refine List.pairwise_cons.mpr ⟨?_, ih later⟩
        intro entry member
        rcases mem_of_mem_insert member with rfl | old
        · apply String.not_le.mp
          intro back
          exact differs (String.le_antisymm back (String.not_lt.mp after))
        · exact below entry old

theorem ascending_ofList (entries : List (String × α)) : Ascending (ofList entries) := by
  have step : ∀ table : List (String × α), Ascending table →
      Ascending (entries.foldl (fun table entry => insert entry.1 entry.2 table) table) := by
    induction entries with
    | nil => exact fun table ascending => ascending
    | cons entry rest ih => exact fun table ascending => ih _ ascending.insert
  exact step [] List.Pairwise.nil

theorem insert_of_below (below : ∀ entry ∈ entries, entry.1 < name) :
    insert name value entries = entries ++ [(name, value)] := by
  induction entries with
  | nil => rfl
  | cons first rest ih =>
    obtain ⟨here, later⟩ := List.forall_mem_cons.mp below
    have differs : name ≠ first.1 := fun same => String.lt_irrefl name (same ▸ here)
    rw [insert, if_neg (String.lt_asymm here), if_neg differs, ih later, List.cons_append]

/-- Entries in ascending order are their own table. -/
theorem Ascending.ofList_eq (ascending : Ascending entries) : ofList entries = entries := by
  have step : ∀ table : List (String × α), Ascending (table ++ entries) →
      entries.foldl (fun table entry => Named.insert entry.1 entry.2 table) table =
        table ++ entries := by
    induction entries with
    | nil => simp
    | cons entry rest ih =>
      intro table ordered
      have below : ∀ kept ∈ table, kept.1 < entry.1 := fun kept member =>
        (List.pairwise_append.mp ordered).2.2 kept member entry (List.mem_cons_self ..)
      rw [List.foldl_cons, insert_of_below below]
      have later := ih (List.pairwise_cons.mp ascending).2 (table ++ [(entry.1, entry.2)])
      rw [List.append_assoc, List.singleton_append] at later
      exact later ordered
  exact step [] ascending

theorem mem_of_find?_eq_some (found : find? name entries = some value) :
    (name, value) ∈ entries := by
  induction entries with
  | nil => cases found
  | cons first rest ih =>
    obtain ⟨other, kept⟩ := first
    rw [find?] at found
    split at found
    next same =>
      cases found
      exact same ▸ List.mem_cons_self ..
    next => exact List.mem_cons_of_mem _ (ih found)

theorem Ascending.nodup (ascending : Ascending entries) : entries.Nodup := by
  apply ascending.imp
  intro entry other below same
  exact String.lt_irrefl entry.1 (same ▸ below)

theorem Ascending.names_pairwise (ascending : Ascending entries) :
    (names entries).Pairwise (· < ·) :=
  List.pairwise_map.mpr ascending

theorem Ascending.names_nodup (ascending : Ascending entries) : (names entries).Nodup := by
  apply ascending.names_pairwise.imp
  rintro name _ below rfl
  exact String.lt_irrefl name below

/-- Equally many names of which one list has all are the same names. -/
theorem Ascending.names_eq {β : Type} {others : List (String × β)} (ascending : Ascending entries)
    (ascending' : Ascending others) (length : entries.length = others.length)
    (subset : names entries ⊆ names others) : names entries = names others := by
  have order : (names entries).Perm (names others) := by
    apply (List.subperm_of_subset ascending.names_nodup subset).perm_of_length_le
    simp [names, length]
  exact order.eq_of_pairwise (fun _ _ _ _ below above => (String.lt_asymm below above).elim)
    ascending.names_pairwise ascending'.names_pairwise

theorem find?_map {β : Type} (f : α → β) :
    find? name (entries.map fun entry => (entry.1, f entry.2)) = (find? name entries).map f := by
  induction entries with
  | nil => rfl
  | cons first rest ih =>
    rw [List.map_cons, find?, find?, ih]
    split <;> rfl

theorem find?_insert (other : String) :
    find? other (insert name value entries) =
      if name = other then some value else find? other entries := by
  induction entries with
  | nil => rfl
  | cons first rest ih =>
    obtain ⟨existing, kept⟩ := first
    rw [insert]
    split
    next => rfl
    next =>
      split
      next same =>
        subst same
        by_cases sought : name = other
        · simp [find?, sought]
        · simp [find?, sought]
      next differs =>
        rw [find?, ih, find?]
        by_cases sought : name = other
        · rw [if_pos sought, if_neg fun same => differs (sought.trans same.symm), if_pos sought]
        · rw [if_neg sought, if_neg sought]

theorem find?_eq_none_iff :
    find? name entries = none ↔ name ∉ names entries := by
  induction entries with
  | nil => simp [find?, names]
  | cons entry rest ih =>
    obtain ⟨other, value⟩ := entry
    rw [find?]
    split
    next same => simp [names, same]
    next differs => simp [ih, names, Ne.symm differs]

theorem exists_find?_iff :
    (∃ value, find? name entries = some value) ↔ name ∈ names entries := by
  rw [← Option.ne_none_iff_exists', ne_eq, find?_eq_none_iff, not_not]

theorem ofList_concat : ofList (entries ++ [entry]) = insert entry.1 entry.2 (ofList entries) := by
  rw [ofList, List.foldl_append]
  rfl

/-- Of several entries with the name the last one counts. -/
theorem find?_ofList (name : String) : find? name (ofList entries) =
    (entries.filter fun entry => entry.1 = name).getLast?.map Prod.snd := by
  induction entries using List.reverseRecOn with
  | nil => rfl
  | append_singleton earlier entry ih =>
    rw [ofList_concat, find?_insert, ih, List.filter_append]
    by_cases named : entry.1 = name
    · simp [named]
    · simp [named]

theorem mem_names_ofList : name ∈ names (ofList entries) ↔ name ∈ names entries := by
  rw [← not_iff_not, ← find?_eq_none_iff, find?_ofList, Option.map_eq_none_iff,
    List.getLast?_eq_none_iff, List.filter_eq_nil_iff]
  simp only [names, List.mem_map, decide_eq_true_eq, not_exists, not_and]

theorem Ascending.find?_of_mem (ascending : Ascending entries) (member : (name, value) ∈ entries) :
    find? name entries = some value := by
  induction entries with
  | nil => cases member
  | cons first rest ih =>
    obtain ⟨existing, kept⟩ := first
    obtain ⟨below, later⟩ := List.pairwise_cons.mp ascending
    rcases List.mem_cons.mp member with same | member
    · cases same
      exact if_pos rfl
    · have differs : existing ≠ name := fun same =>
        String.lt_irrefl name (same ▸ below (name, value) member)
      rw [find?, if_neg differs]
      exact ih later member

/-- Entries in ascending order are told by what is found under each name. -/
theorem Ascending.ext {others : List (String × α)} (ascending : Ascending entries)
    (ascending' : Ascending others)
    (same : ∀ name, find? name entries = find? name others) : entries = others := by
  have member : ∀ entry, entry ∈ entries ↔ entry ∈ others := by
    intro entry
    constructor
    · intro inside
      apply mem_of_find?_eq_some
      rw [← same]
      exact ascending.find?_of_mem inside
    · intro inside
      apply mem_of_find?_eq_some
      rw [same]
      exact ascending'.find?_of_mem inside
  have order : entries.Perm others :=
    (List.perm_ext_iff_of_nodup ascending.nodup ascending'.nodup).mpr member
  exact order.eq_of_pairwise (fun _ _ _ _ below above => (String.lt_asymm below above).elim)
    ascending ascending'

/-- Of entries without a name in common, one list can be put after the other. -/
theorem find?_ofList_append {left right : List (String × α)} (ascending : Ascending left)
    (ascending' : Ascending right) (disjoint : ∀ name ∈ names left, name ∉ names right) :
    find? name (ofList (left ++ right)) = (find? name left).or (find? name right) := by
  rw [find?_ofList, List.filter_append, List.getLast?_append, Option.map_or, ← find?_ofList,
    ← find?_ofList, ascending.ofList_eq, ascending'.ofList_eq]
  cases found : find? name right with
  | none => rw [Option.none_or, Option.or_none]
  | some value =>
    have absent : find? name left = none := by
      rw [find?_eq_none_iff]
      intro inside
      exact disjoint name inside (exists_find?_iff.mp ⟨value, found⟩)
    rw [absent, Option.some_or, Option.none_or]

theorem ofList_append_comm {left right : List (String × α)} (ascending : Ascending left)
    (ascending' : Ascending right) (disjoint : ∀ name ∈ names left, name ∉ names right) :
    ofList (left ++ right) = ofList (right ++ left) := by
  apply (ascending_ofList _).ext (ascending_ofList _)
  intro name
  have disjoint' : ∀ name ∈ names right, name ∉ names left :=
    fun name there here => disjoint name here there
  rw [find?_ofList_append ascending ascending' disjoint,
    find?_ofList_append ascending' ascending disjoint']
  cases found : find? name left with
  | none => rw [Option.none_or, Option.or_none]
  | some value =>
    have absent : find? name right = none := by
      rw [find?_eq_none_iff]
      exact disjoint name (exists_find?_iff.mp ⟨value, found⟩)
    rw [absent, Option.some_or, Option.none_or]

end GridQuery.Named
