import GridQuery.Proofs.Query.Merge

/-!
Runs of the merging loop, told without saying beforehand that there is an end to them. Every item
takes a run of its own, on its selections or on what has become of the selections of the item that
absorbs it, followed by its own. A list has no more nodes after it is merged, and what is merged on
the way has fewer nodes than the whole list; therefore every run ends.
-/

namespace GridQuery.Selection

/-- The list that is merged when an item is placed: its selections, behind those that the item
absorbing it has gathered so far. -/
def handed (item : Selection) : List Selection → List Selection
  | [] => item.selections
  | existing :: rest =>
    if existing.sameTarget item then existing.selections ++ item.selections else handed item rest

/-- The loop goes from what is `merged` already through the items and ends with the result. For each
item the list that it hands on is merged first, in a run that starts with nothing merged. -/
inductive Runs : List Selection → List Selection → List Selection → Prop
  | done {merged : List Selection} : Runs merged [] merged
  | next {merged inner rest result : List Selection} {item : Selection}
      (call : Runs [] (handed item merged) inner)
      -- Placing merges no other list (`place_eq_handed`), so the result of that run is enough.
      (further : Runs (place (fun _ => inner) item merged) rest result) :
      Runs merged (item :: rest) result

/-- On its way from what is `merged` already through the items the loop hands on the list, whether
or not there is an end to merging that list or to what follows. -/
inductive Calls : List Selection → List Selection → List Selection → Prop
  | now {merged rest : List Selection} {item : Selection} :
      Calls merged (item :: rest) (handed item merged)
  | later {merged inner rest list : List Selection} {item : Selection}
      (call : Runs [] (handed item merged) inner)
      (further : Calls (place (fun _ => inner) item merged) rest list) :
      Calls merged (item :: rest) list

variable {merged items inner result list : List Selection} {item : Selection}

/-- Nothing but the list that is handed on is merged when an item is placed. -/
theorem place_eq_handed (merge : List Selection → List Selection) (item : Selection)
    (merged : List Selection) :
    place merge item merged = place (fun _ => merge (handed item merged)) item merged := by
  induction merged with
  | nil => rfl
  | cons existing rest ih =>
    rw [place, place, handed]
    split
    next => rfl
    next => rw [ih]

theorem nodesOfList_handed_lt (item : Selection) (merged : List Selection) :
    nodesOfList (handed item merged) < nodesOfList merged + item.nodes := by
  induction merged with
  | nil =>
    rw [handed, nodes_eq]
    omega
  | cons existing rest ih =>
    rw [handed, nodesOfList, nodes_eq existing]
    split
    next =>
      rw [nodesOfList_append, nodes_eq item]
      omega
    next => omega

/-- One step of the loop: placing an item adds at most its own nodes, if the list that was handed on
has not grown. -/
theorem nodesOfList_place_le (kept : nodesOfList inner ≤ nodesOfList (handed item merged)) :
    nodesOfList (place (fun _ => inner) item merged) ≤ nodesOfList merged + item.nodes := by
  induction merged with
  | nil =>
    rw [handed] at kept
    simp only [place, nodesOfList, nodes_eq]
    omega
  | cons existing rest ih =>
    rw [handed] at kept
    rw [place, nodesOfList]
    split at kept
    next same =>
      rw [nodesOfList_append] at kept
      rw [if_pos same, nodesOfList, nodes_eq, nodes_eq existing, nodes_eq item]
      simp only [absorb]
      omega
    next differs =>
      have later := ih kept
      rw [if_neg differs, nodesOfList]
      omega

/-- The whole loop: the result has no more nodes than were merged before and still to come. -/
theorem Runs.nodesOfList_le (runs : Runs merged items result) :
    nodesOfList result ≤ nodesOfList merged + nodesOfList items := by
  induction runs with
  | done => exact Nat.le_refl _
  | next call further called ends =>
    rw [nodesOfList, Nat.zero_add] at called
    have placed := nodesOfList_place_le called
    rw [nodesOfList]
    omega

theorem Runs.nodesOfList_le_of_nil (runs : Runs [] items result) :
    nodesOfList result ≤ nodesOfList items :=
  Nat.le_trans runs.nodesOfList_le (Nat.le_of_eq (Nat.zero_add _))

theorem Calls.nodesOfList_lt (calls : Calls merged items list) :
    nodesOfList list < nodesOfList merged + nodesOfList items := by
  induction calls with
  | @now merged rest item =>
    have fewer := nodesOfList_handed_lt item merged
    rw [nodesOfList]
    omega
  | later call further below =>
    have placed := nodesOfList_place_le call.nodesOfList_le_of_nil
    rw [nodesOfList]
    omega

/-- Every run ends: along the items by induction on them, and on what is handed on because that has
fewer nodes than there are in sight. -/
theorem exists_runs (count : Nat) (merged items : List Selection)
    (bound : nodesOfList merged + nodesOfList items ≤ count) :
    ∃ result, Runs merged items result := by
  induction count using Nat.strongRecOn generalizing merged items with
  | ind count ih =>
    induction items generalizing merged with
    | nil => exact ⟨merged, .done⟩
    | cons item rest further =>
      rw [nodesOfList] at bound
      have fewer := nodesOfList_handed_lt item merged
      obtain ⟨inner, call⟩ := ih (nodesOfList (handed item merged)) (by omega) []
        (handed item merged) (Nat.le_of_eq (Nat.zero_add _))
      have placed := nodesOfList_place_le call.nodesOfList_le_of_nil
      obtain ⟨result, ends⟩ := further (place (fun _ => inner) item merged) (by omega)
      exact ⟨result, .next call ends⟩

/-- A run has no choice. -/
theorem Runs.eq_foldl (runs : Runs merged items result) :
    result = items.foldl (fun merged item => place merge item merged) merged := by
  induction runs with
  | done => rfl
  | next call further called ends =>
    rw [← merge_eq_foldl] at called
    rw [ends, called, List.foldl_cons, ← place_eq_handed]

/-- Merging ends on every list, with a result that has no more nodes, and every list that is merged
on the way has fewer nodes than the list that it came from. -/
theorem merge_ends (items : List Selection) :
    (∃ result, Runs [] items result) ∧
      (∀ result, Runs [] items result → result = merge items) ∧
      nodesOfList (merge items) ≤ nodesOfList items ∧
      ∀ list, Calls [] items list → nodesOfList list < nodesOfList items := by
  have value : ∀ result, Runs [] items result → result = merge items := by
    intro result runs
    rw [runs.eq_foldl, merge_eq_foldl]
  obtain ⟨result, runs⟩ := exists_runs (nodesOfList items) [] items (Nat.le_of_eq (Nat.zero_add _))
  refine ⟨⟨result, runs⟩, value, ?_, ?_⟩
  · rw [← value result runs]
    exact runs.nodesOfList_le_of_nil
  · intro list calls
    exact Nat.lt_of_lt_of_eq calls.nodesOfList_lt (Nat.zero_add _)

/-- Tasks with one title, then with another and a due date. -/
def gatheredTasks : List Selection :=
  [{ plain "tasks" with selections := [plain "title", plain "title"] },
    { plain "tasks" with selections := [plain "due", plain "title"] }]

/-- The second list of selections is merged behind what has become of the first one. -/
theorem gatheredTasks_end :
    Calls [] gatheredTasks [plain "title", plain "due", plain "title"] ∧
      nodesOfList [plain "title", plain "due", plain "title"] < nodesOfList gatheredTasks := by
  have first : Runs [] [plain "title", plain "title"] [plain "title"] :=
    .next .done (.next .done .done)
  have second : Calls [] gatheredTasks [plain "title", plain "due", plain "title"] :=
    .later first .now
  exact ⟨second, (merge_ends gatheredTasks).2.2.2 _ second⟩

end GridQuery.Selection
