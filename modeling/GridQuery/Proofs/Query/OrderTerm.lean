import GridQuery.Proofs.Condition.Operands
import GridQuery.Query.OrderTerm

/-!
Orderings are read back from what they are written as, whatever the text of their path: splitting a
text at its dots and joining the segments gives the text again.
-/

namespace GridQuery

namespace Path

theorem joinDots_splitDots (text : List Char) :
    joinDots (splitDots text).1 (splitDots text).2 = text := by
  induction text with
  | nil => rfl
  | cons c text ih =>
    rw [splitDots]
    by_cases dot : c = '.'
    · simp [dot, joinDots, ih]
    · simp only [dot, if_false]
      generalize splitDots text = split at ih ⊢
      obtain ⟨segment, others⟩ := split
      cases others with
      | nil => exact congrArg (c :: ·) ih
      | cons second rest => exact congrArg (c :: ·) ih

theorem toString_ofString (text : String) : toString (ofString text) = text := by
  have segments : (splitDots text.toList).2.map (String.toList ∘ String.ofList) =
      (splitDots text.toList).2 := by
    simp [Function.comp_def]
  rw [toString, ofString, List.map_map, segments, String.toList_ofList, joinDots_splitDots,
    String.ofList_toList]

end Path

namespace Direction

theorem ofText_text (direction : Direction) : ofText direction.text = .ok direction := by
  have found :
      (all.find? fun other => other.text = upperAscii direction.text) = some direction := by
    cases direction <;> decide
  rw [ofText, found]

end Direction

namespace OrderTerm

theorem chain?_nestSegments (text first : String) (rest : List String) :
    chain? (nestSegments (.string text) first rest) = some (first :: rest, text) := by
  induction rest generalizing first with
  | nil => rfl
  | cons second rest ih =>
    rw [nestSegments, Json.single, chain?, ih]
    rfl

theorem canonical_nestSegments {value : Json} (canonical : value.Canonical) (first : String)
    (rest : List String) : (nestSegments value first rest).Canonical := by
  induction rest generalizing first with
  | nil => exact Json.canonical_single canonical
  | cons second rest ih => exact Json.canonical_single (ih second)

theorem ofJson_toJson (term : OrderTerm) : ofJson term.toJson = .ok term := by
  have path : Path.toString ⟨(Path.ofString term.field).first, (Path.ofString term.field).rest⟩ =
      term.field := Path.toString_ofString term.field
  rw [toJson, ofJson, chain?_nestSegments]
  simp only [Direction.ofText_text, path]
  rfl

theorem read_toJson (term : OrderTerm) : Read.orderTerm term.toJson = .ok term := by
  have canonical : term.toJson.Canonical := canonical_nestSegments (by trivial) _ _
  rw [Read.orderTerm, mapError_eq_ok, canonical.canonical_eq, ofJson_toJson]

end OrderTerm

end GridQuery
