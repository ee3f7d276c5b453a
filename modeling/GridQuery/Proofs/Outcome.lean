import Mathlib.Data.List.Forall2

/-!
When computations that may fail give a result, and when they give an error.
-/

namespace GridQuery

variable {ε ε' α β : Type} {first : Except ε α} {next : α → Except ε β}

theorem bind_eq_ok {result : β} :
    first >>= next = .ok result ↔ ∃ value, first = .ok value ∧ next value = .ok result := by
  cases first with
  | error error => simp [bind, Except.bind]
  | ok value => simp [bind, Except.bind]

theorem bind_eq_error {error : ε} :
    first >>= next = .error error ↔
      first = .error error ∨ ∃ value, first = .ok value ∧ next value = .error error := by
  cases first with
  | error other => simp [bind, Except.bind]
  | ok value => simp [bind, Except.bind]

theorem map_eq_ok {f : α → β} {result : β} :
    first.map f = .ok result ↔ ∃ value, first = .ok value ∧ f value = result := by
  cases first with
  | error error => simp [Except.map]
  | ok value => simp [Except.map]

theorem mapError_eq_ok {f : ε → ε'} {result : α} :
    first.mapError f = .ok result ↔ first = .ok result := by
  cases first with
  | error error => exact ⟨nofun, nofun⟩
  | ok value =>
    change (.ok value : Except ε' α) = .ok result ↔ _
    rw [Except.ok.injEq, Except.ok.injEq]

section

variable {f : α → Except ε β} {items : List α} {results : List β}

theorem exists_mapM_eq_ok_iff :
    (∃ results, items.mapM f = .ok results) ↔ ∀ item ∈ items, ∃ result, f item = .ok result := by
  induction items with
  | nil => exact ⟨fun _ => nofun, fun _ => ⟨[], rfl⟩⟩
  | cons item rest ih =>
    rw [List.forall_mem_cons, ← ih, List.mapM_cons]
    constructor
    · rintro ⟨_, made⟩
      obtain ⟨result, here, made⟩ := bind_eq_ok.mp made
      obtain ⟨others, later, _⟩ := bind_eq_ok.mp made
      exact ⟨⟨result, here⟩, others, later⟩
    · rintro ⟨⟨result, here⟩, others, later⟩
      exact ⟨result :: others, bind_eq_ok.mpr ⟨result, here, bind_eq_ok.mpr ⟨others, later, rfl⟩⟩⟩

theorem exists_of_mem_mapM (made : items.mapM f = .ok results) {result : β}
    (member : result ∈ results) : ∃ item ∈ items, f item = .ok result := by
  induction items generalizing results with
  | nil =>
    cases made
    cases member
  | cons item rest ih =>
    rw [List.mapM_cons] at made
    obtain ⟨first, here, made⟩ := bind_eq_ok.mp made
    obtain ⟨others, later, made⟩ := bind_eq_ok.mp made
    cases made
    rcases List.mem_cons.mp member with rfl | member
    · exact ⟨item, List.mem_cons_self .., here⟩
    · obtain ⟨source, inside, made⟩ := ih later member
      exact ⟨source, List.mem_cons_of_mem _ inside, made⟩

theorem mem_mapM_of_mem (made : items.mapM f = .ok results) {item : α} (member : item ∈ items) :
    ∃ result ∈ results, f item = .ok result := by
  induction items generalizing results with
  | nil => cases member
  | cons head rest ih =>
    rw [List.mapM_cons] at made
    obtain ⟨first, here, made⟩ := bind_eq_ok.mp made
    obtain ⟨others, later, made⟩ := bind_eq_ok.mp made
    cases made
    rcases List.mem_cons.mp member with rfl | member
    · exact ⟨first, List.mem_cons_self .., here⟩
    · obtain ⟨result, inside, made⟩ := ih later member
      exact ⟨result, List.mem_cons_of_mem _ inside, made⟩

theorem forall₂_of_mapM {related : α → β → Prop} (made : items.mapM f = .ok results)
    (each : ∀ item ∈ items, ∀ result, f item = .ok result → related item result) :
    List.Forall₂ related items results := by
  induction items generalizing results with
  | nil =>
    cases made
    exact .nil
  | cons item rest ih =>
    obtain ⟨first, later⟩ := List.forall_mem_cons.mp each
    rw [List.mapM_cons] at made
    obtain ⟨result, here, made⟩ := bind_eq_ok.mp made
    obtain ⟨others, beyond, made⟩ := bind_eq_ok.mp made
    cases made
    exact .cons (first result here) (ih beyond later)

theorem exists_of_mapM_eq_error {error : ε} (failed : items.mapM f = .error error) :
    ∃ item ∈ items, f item = .error error := by
  induction items with
  | nil => cases failed
  | cons item rest ih =>
    rw [List.mapM_cons] at failed
    rcases bind_eq_error.mp failed with here | ⟨_, _, failed⟩
    · exact ⟨item, List.mem_cons_self .., here⟩
    · rcases bind_eq_error.mp failed with later | ⟨_, _, failed⟩
      · obtain ⟨other, member, raised⟩ := ih later
        exact ⟨other, List.mem_cons_of_mem _ member, raised⟩
      · cases failed

/-- A run over a list stops at the first item that fails. -/
theorem mapM_eq_error_iff {error : ε} : items.mapM f = .error error ↔
    ∃ before item after, items = before ++ item :: after ∧
      (∀ other ∈ before, ∃ result, f other = .ok result) ∧ f item = .error error := by
  induction items with
  | nil =>
    refine iff_of_false nofun fun stops => ?_
    obtain ⟨before, item, after, split, _⟩ := stops
    exact List.append_ne_nil_of_right_ne_nil before (List.cons_ne_nil item after) split.symm
  | cons item rest ih =>
    rw [List.mapM_cons, bind_eq_error]
    constructor
    · intro failed
      rcases failed with here | ⟨result, made, failed⟩
      · exact ⟨[], item, rest, rfl, nofun, here⟩
      · rcases bind_eq_error.mp failed with later | ⟨_, _, failed⟩
        · obtain ⟨before, other, after, split, passed, failed⟩ := ih.mp later
          refine ⟨item :: before, other, after, by rw [split, List.cons_append], ?_, failed⟩
          exact List.forall_mem_cons.mpr ⟨⟨result, made⟩, passed⟩
        · cases failed
    · intro ⟨before, other, after, split, passed, failed⟩
      cases before with
      | nil =>
        obtain ⟨same, _⟩ := List.cons.inj split
        exact .inl (same ▸ failed)
      | cons first before =>
        obtain ⟨same, split⟩ := List.cons.inj split
        obtain ⟨⟨result, made⟩, passed⟩ := List.forall_mem_cons.mp passed
        refine .inr ⟨result, same ▸ made, bind_eq_error.mpr (.inl ?_)⟩
        exact ih.mpr ⟨before, other, after, split, passed, failed⟩

theorem mapM_eq_self {f : α → Except ε α} (each : ∀ item ∈ items, f item = .ok item) :
    items.mapM f = .ok items := by
  induction items with
  | nil => rfl
  | cons item rest ih =>
    obtain ⟨first, later⟩ := List.forall_mem_cons.mp each
    rw [List.mapM_cons, first, ih later]
    rfl

end

end GridQuery
