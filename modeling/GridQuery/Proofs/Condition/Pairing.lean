import GridQuery.Condition.Equality
import Mathlib.Data.List.Perm.Basic
import Mathlib.Data.Quot

/-!
Pairing the members of two lists one for one. Taking the first unused partner for each member never
goes wrong when partners are told by an equivalence: whichever partner is taken, what is left over
can still be paired off. In the quotient by the equivalence this is cancelling a head.
-/

namespace GridQuery

/-- Some reordering of the right list is related to the left list member by member. -/
def Paired {α : Type} (r : α → α → Prop) (left right : List α) : Prop :=
  ∃ paired, List.Forall₂ r left paired ∧ paired.Perm right

/-- Pairs every member on the left with the first unused one on the right that passes the test. -/
def pairsOff {α : Type} (test : α → α → Bool) : List α → List α → Bool
  | [], right => right.isEmpty
  | member :: rest, right =>
    match removeFirst (test member) right with
    | some others => pairsOff test rest others
    | none => false

section

variable {α : Type} {r : α → α → Prop} {left middle right others : List α} {first partner : α}

theorem forall₂_symm
    (symmetric : ∀ member ∈ left, ∀ other, r member other → r other member)
    (pairs : List.Forall₂ r left right) : List.Forall₂ r right left := by
  induction pairs with
  | nil => exact .nil
  | cons here _ ih =>
    exact .cons (symmetric _ (List.mem_cons_self ..) _ here)
      (ih fun member inside => symmetric member (List.mem_cons_of_mem _ inside))

theorem forall₂_trans
    (transitive : ∀ member ∈ left, ∀ other third, r member other → r other third → r member third)
    (pairs : List.Forall₂ r left middle) (later : List.Forall₂ r middle right) :
    List.Forall₂ r left right := by
  induction pairs generalizing right with
  | nil => exact later
  | cons here _ ih =>
    cases later with
    | cons there later =>
      exact .cons (transitive _ (List.mem_cons_self ..) _ _ here there)
        (ih (fun member inside => transitive member (List.mem_cons_of_mem _ inside)) later)

/-- Where related members agree, what holds of all on one side holds of all on the other. -/
theorem forall₂_forall_iff {β : Type} {related : α → β → Prop} {others : List β} {here : α → Prop}
    {there : β → Prop} (pairs : List.Forall₂ related left others)
    (agree : ∀ member ∈ left, ∀ other, related member other → (here member ↔ there other)) :
    (∀ member ∈ left, here member) ↔ ∀ other ∈ others, there other := by
  induction pairs with
  | nil => simp
  | cons near _ ih =>
    obtain ⟨first, later⟩ := List.forall_mem_cons.mp agree
    rw [List.forall_mem_cons, List.forall_mem_cons, first _ near, ih later]

namespace Paired

theorem refl (reflexive : ∀ member ∈ left, r member member) : Paired r left left :=
  ⟨left, List.forall₂_same.mpr reflexive, .refl left⟩

theorem symm (symmetric : ∀ member ∈ left, ∀ other, r member other → r other member)
    (pairing : Paired r left right) : Paired r right left := by
  obtain ⟨paired, pairs, order⟩ := pairing
  exact List.perm_comp_forall₂ order.symm (forall₂_symm symmetric pairs)

theorem trans
    (transitive : ∀ member ∈ left, ∀ other third, r member other → r other third → r member third)
    (pairing : Paired r left middle) (later : Paired r middle right) : Paired r left right := by
  obtain ⟨paired, pairs, order⟩ := pairing
  obtain ⟨paired', pairs', order'⟩ := later
  obtain ⟨joined, between, regrouped⟩ := List.perm_comp_forall₂ order pairs'
  exact ⟨joined, forall₂_trans transitive pairs between, regrouped.trans order'⟩

section

variable {property : α → Prop}

/-- What partners have in common holds of all members on both sides or on neither. -/
theorem forall_iff (pairing : Paired r left right)
    (agree : ∀ member ∈ left, ∀ other, r member other → (property member ↔ property other)) :
    (∀ member ∈ left, property member) ↔ ∀ member ∈ right, property member := by
  obtain ⟨paired, pairs, order⟩ := pairing
  rw [forall₂_forall_iff pairs agree]
  simp only [order.mem_iff]

theorem exists_iff (pairing : Paired r left right)
    (agree : ∀ member ∈ left, ∀ other, r member other → (property member ↔ property other)) :
    (∃ member ∈ left, property member) ↔ ∃ member ∈ right, property member := by
  have none := pairing.forall_iff fun member inside other near =>
    not_congr (agree member inside other near)
  simpa only [not_forall, not_not, exists_prop] using not_congr none

end

theorem nil_left_iff : Paired r [] right ↔ right = [] := by
  constructor
  · rintro ⟨paired, pairs, order⟩
    cases pairs
    exact order.nil_eq.symm
  · rintro rfl
    exact ⟨[], .nil, .nil⟩

/-- Members pair off exactly when they fall into the same classes equally often. -/
theorem iff_map_perm (equivalence : Equivalence r) :
    Paired r left right ↔ (left.map (Quot.mk r)).Perm (right.map (Quot.mk r)) := by
  have same : ∀ member other, Quot.mk r member = Quot.mk r other ↔ r member other := by
    intro member other
    rw [Quot.eq, equivalence.eqvGen_iff]
  have classes : ∀ paired, List.Forall₂ (fun class' other => class' = Quot.mk r other)
      (left.map (Quot.mk r)) paired ↔ List.Forall₂ r left paired := by
    intro paired
    simp only [List.forall₂_map_left_iff, same]
  constructor
  · rintro ⟨paired, pairs, order⟩
    have equal := (classes paired).mpr pairs
    rw [← List.forall₂_map_right_iff (f := Quot.mk r), List.forall₂_eq_eq_eq] at equal
    rw [equal]
    exact order.map _
  · intro order
    have members : List.Forall₂ (fun class' other => class' = Quot.mk r other)
        (right.map (Quot.mk r)) right := by
      rw [List.forall₂_map_left_iff]
      exact List.forall₂_same.mpr fun _ _ => rfl
    obtain ⟨paired, pairs, order⟩ := List.perm_comp_forall₂ order members
    exact ⟨paired, (classes paired).mp pairs, order⟩

/-- Any partner will do for the first member. -/
theorem cons_iff (equivalence : Equivalence r) (near : r first partner)
    (split : right.Perm (partner :: others)) :
    Paired r (first :: left) right ↔ Paired r left others := by
  have class' : Quot.mk r first = Quot.mk r partner := Quot.sound near
  have split := split.map (Quot.mk r)
  rw [iff_map_perm equivalence, iff_map_perm equivalence, List.map_cons, class']
  rw [List.map_cons] at split
  constructor
  · intro order
    exact (order.trans split).cons_inv
  · intro order
    exact (order.cons _).trans split.symm

theorem exists_near_of_cons (pairing : Paired r (first :: left) right) :
    ∃ partner ∈ right, r first partner := by
  obtain ⟨paired, pairs, order⟩ := pairing
  cases pairs with
  | cons here _ => exact ⟨_, order.subset (List.mem_cons_self ..), here⟩

end Paired

end

section

variable {α : Type} {test : α → Bool} {list others : List α}

theorem removeFirst_eq_some (removed : removeFirst test list = some others) :
    ∃ found, test found = true ∧ list.Perm (found :: others) := by
  induction list generalizing others with
  | nil => cases removed
  | cons candidate rest ih =>
    rw [removeFirst] at removed
    split at removed
    next passes =>
      cases removed
      exact ⟨candidate, passes, .refl _⟩
    next =>
      obtain ⟨kept, later, rfl⟩ := Option.map_eq_some_iff.mp removed
      obtain ⟨found, passes, order⟩ := ih later
      exact ⟨found, passes, (order.cons candidate).trans (.swap found candidate kept)⟩

theorem removeFirst_eq_none (removed : removeFirst test list = none) :
    ∀ candidate ∈ list, test candidate = false := by
  induction list with
  | nil => simp
  | cons candidate rest ih =>
    rw [removeFirst] at removed
    split at removed
    next => cases removed
    next fails =>
      intro other member
      rcases List.mem_cons.mp member with rfl | later
      · simpa using fails
      · exact ih (Option.map_eq_none_iff.mp removed) other later

end

/-- First-fit matching decides whether the members pair off, if the test agrees with an equivalence
on the members at hand. -/
theorem pairsOff_iff {α : Type} {r : α → α → Prop} (equivalence : Equivalence r)
    {test : α → α → Bool} {left right : List α}
    (agree : ∀ member ∈ left, ∀ other ∈ right, test member other = true ↔ r member other) :
    pairsOff test left right = true ↔ Paired r left right := by
  induction left generalizing right with
  | nil => rw [pairsOff, List.isEmpty_iff, Paired.nil_left_iff]
  | cons member rest ih =>
    have here := agree member (List.mem_cons_self ..)
    rw [pairsOff]
    cases removed : removeFirst (test member) right with
    | none =>
      have absent := removeFirst_eq_none removed
      simp only [Bool.false_eq_true, false_iff]
      intro pairing
      obtain ⟨partner, inside, near⟩ := pairing.exists_near_of_cons
      have passes := (here partner inside).mpr near
      rw [absent partner inside] at passes
      cases passes
    | some others =>
      obtain ⟨partner, passes, split⟩ := removeFirst_eq_some removed
      have near := (here partner (split.symm.subset (List.mem_cons_self ..))).mp passes
      rw [Paired.cons_iff equivalence near split]
      apply ih
      intro later inRest other inOthers
      exact agree later (List.mem_cons_of_mem _ inRest) other
        (split.symm.subset (List.mem_cons_of_mem _ inOthers))

end GridQuery
