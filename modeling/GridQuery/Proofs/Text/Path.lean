import GridQuery.Text.Path

/-!
Paths from their end. A text that is read from its end has the same segments, the last one first, so
what wraps its parts from the last to the first makes the same as what puts the first part around
all others.
-/

namespace GridQuery

namespace Path

/-- The pieces of a text between its dots. -/
def pieces (text : List Char) : List (List Char) :=
  (splitDots text).1 :: (splitDots text).2

/-- The segments of a text that is read from its end, the last one first. -/
def segmentsFromEnd (text : String) : List String :=
  (pieces text.toList.reverse).map fun piece => String.ofList piece.reverse

theorem segments_ofString (text : String) :
    (ofString text).segments = (pieces text.toList).map String.ofList :=
  rfl

theorem pieces_cons (c : Char) (text : List Char) : pieces (c :: text) =
    if c = '.' then [] :: pieces text else (c :: (splitDots text).1) :: (splitDots text).2 := by
  rw [pieces, splitDots]
  by_cases dot : c = '.' <;> simp [dot, pieces]

/-- A character at the end of a text begins a new piece or goes on with the last one. -/
theorem pieces_concat {text last : List Char} {before : List (List Char)}
    (split : pieces text = before ++ [last]) (c : Char) :
    pieces (text ++ [c]) = before ++ if c = '.' then [last, []] else [last ++ [c]] := by
  induction text generalizing before last with
  | nil =>
    cases before with
    | nil =>
      cases split
      rw [List.nil_append, pieces_cons]
      rfl
    | cons piece before => simp [pieces, splitDots] at split
  | cons d text ih =>
    rw [pieces_cons] at split
    rw [List.cons_append, pieces_cons]
    by_cases dot : d = '.'
    · rw [if_pos dot] at split ⊢
      cases before with
      | nil => cases (List.cons.inj split).2
      | cons piece before =>
        obtain ⟨same, later⟩ := List.cons.inj split
        rw [ih later, same, List.cons_append]
    · rw [if_neg dot] at split ⊢
      cases before with
      | nil =>
        obtain ⟨same, none⟩ := List.cons.inj split
        have whole : pieces text = [] ++ [(splitDots text).1] :=
          congrArg ((splitDots text).1 :: ·) none
        have longer := ih whole
        by_cases new : c = '.'
        · rw [if_pos new] at longer ⊢
          obtain ⟨first, others⟩ := List.cons.inj longer
          rw [first, others, same, List.nil_append]
        · rw [if_neg new] at longer ⊢
          obtain ⟨first, others⟩ := List.cons.inj longer
          rw [first, others, ← same, List.nil_append, List.cons_append]
      | cons piece before =>
        obtain ⟨same, later⟩ := List.cons.inj split
        have whole : pieces text = ((splitDots text).1 :: before) ++ [last] :=
          congrArg ((splitDots text).1 :: ·) later
        obtain ⟨first, others⟩ := List.cons.inj (ih whole)
        rw [first, others, same]
        rfl

/-- Read from its end a text has the same pieces, each of them and all of them turned round. -/
theorem pieces_reverse (text : List Char) :
    (pieces text.reverse).map List.reverse = (pieces text).reverse := by
  induction text with
  | nil => rfl
  | cons c text ih =>
    obtain ⟨before, last, split⟩ : ∃ before last, pieces text.reverse = before ++ [last] :=
      ⟨_, _, (List.dropLast_concat_getLast (List.cons_ne_nil _ _)).symm⟩
    rw [split, List.map_append, List.map_singleton, pieces, List.reverse_cons] at ih
    obtain ⟨others, first⟩ := List.append_inj' ih rfl
    rw [List.reverse_cons, pieces_concat split, pieces_cons]
    by_cases dot : c = '.'
    · simp [dot, pieces, others, List.singleton_inj.mp first]
    · simp [dot, others, List.singleton_inj.mp first]

theorem segmentsFromEnd_eq (text : String) :
    segmentsFromEnd text = (ofString text).segments.reverse := by
  rw [segments_ofString, ← List.map_reverse, ← pieces_reverse, List.map_map]
  rfl

section

variable {α β : Type} {innermost : α → β} {around : α → β → β}

/-- Wraps the last part and puts every part before it around what there is, if there are parts at
all. The parts are given from the last to the first. -/
def wrapFromEnd? (innermost : α → β) (around : α → β → β) : List α → Option β
  | [] => none
  | last :: outer => some (outer.foldl (fun inner part => around part inner) (innermost last))

/-- What puts the first part around all others is the same from the end. -/
theorem wrapFromEnd?_reverse (build : α → List α → β)
    (single : ∀ last, build last [] = innermost last)
    (more : ∀ first second rest, build first (second :: rest) = around first (build second rest))
    (first : α) (rest : List α) :
    wrapFromEnd? innermost around (first :: rest).reverse = some (build first rest) := by
  induction rest generalizing first with
  | nil => exact congrArg some (single first).symm
  | cons second rest ih =>
    have inner := ih second
    obtain ⟨last, outer, backwards⟩ := List.exists_cons_of_ne_nil
      (List.reverse_ne_nil_iff.mpr (List.cons_ne_nil second rest))
    rw [backwards, wrapFromEnd?, Option.some.injEq] at inner
    rw [List.reverse_cons, backwards, List.cons_append, wrapFromEnd?, List.foldl_append, inner,
      more]
    rfl

end

end Path

end GridQuery
