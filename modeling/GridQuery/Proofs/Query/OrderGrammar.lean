import Mathlib
import GridQuery.Proofs.Query.OrderTerm

/-!
The grammar of orderings. What is read is a chain of objects with one member each around the text of
a direction, in which the case of letters does not matter. Writing splits the path at all of its
dots, also at those inside one key of the chain, and spells the direction in capitals.
-/

namespace GridQuery

namespace Path

theorem dotless_splitDots (text : List Char) :
    ∀ segment ∈ (splitDots text).1 :: (splitDots text).2, '.' ∉ segment := by
  induction text with
  | nil => simp [splitDots]
  | cons c text ih =>
    rw [splitDots]
    by_cases dot : c = '.'
    · simpa [dot] using ih
    · simpa [dot, eq_comm] using ih

/-- A text is split at all of its dots. -/
theorem dotless_ofString (text : String) :
    ∀ segment ∈ (ofString text).segments, '.' ∉ segment.toList := by
  simpa [ofString, segments] using dotless_splitDots text.toList

end Path

namespace Direction

/-- The texts differ at most in the case of ASCII letters. -/
def SameButCase (left right : String) : Prop :=
  left.toList.map Char.toLower = right.toList.map Char.toLower

theorem map_toUpper_eq_iff {left right : List Char} :
    left.map Char.toUpper = right.map Char.toUpper ↔
      left.map Char.toLower = right.map Char.toLower := by
  constructor
  · intro same
    simpa [Function.comp_def] using congrArg (List.map Char.toLower) same
  · intro same
    simpa [Function.comp_def] using congrArg (List.map Char.toUpper) same

theorem map_toUpper_text (direction : Direction) :
    direction.text.toList.map Char.toUpper = direction.text.toList := by
  cases direction <;> decide

theorem upperAscii_eq_text_iff {text : String} {direction : Direction} :
    upperAscii text = direction.text ↔ SameButCase text direction.text := by
  rw [SameButCase, ← map_toUpper_eq_iff, map_toUpper_text, upperAscii, ← String.toList_inj,
    String.toList_ofList]

theorem ofText_eq_ok_iff {text : String} {direction : Direction} :
    ofText text = .ok direction ↔ SameButCase text direction.text := by
  rw [← upperAscii_eq_text_iff, ofText]
  constructor
  · intro read
    split at read
    next found =>
      cases read
      have same := List.find?_some found
      simpa [eq_comm] using same
    next => cases read
  · intro same
    have found : (all.find? fun other => other.text = upperAscii text) = some direction := by
      rw [same]
      cases direction <;> decide
    rw [found]

end Direction

namespace OrderTerm

/-- The value is a chain of objects with one member each, whose keys are the names from the outside
in, and at its end stands the text. -/
inductive Chain (text : String) : List String → Json → Prop
  | bare : Chain text [] (.string text)
  | under (name : String) {names : List String} {inner : Json} (below : Chain text names inner) :
      Chain text (name :: names) (.object [(name, inner)])

theorem chain?_eq_some_iff {value : Json} {names : List String} {text : String} :
    chain? value = some (names, text) ↔ Chain text names value := by
  constructor
  · intro found
    fun_induction chain? value generalizing names with
    | case1 name inner ih =>
      obtain ⟨⟨later, other⟩, below, same⟩ := Option.map_eq_some_iff.mp found
      cases same
      exact .under name (ih below)
    | case2 other =>
      cases found
      exact .bare
    | case3 => cases found
  · intro chain
    induction chain with
    | bare => rfl
    | under name below ih => rw [chain?, ih, Option.map_some]

theorem chain_nestSegments (text first : String) (rest : List String) :
    Chain text (first :: rest) (nestSegments (.string text) first rest) :=
  chain?_eq_some_iff.mp (chain?_nestSegments text first rest)

variable {value : Json} {term : OrderTerm}

/-- Exactly the chains of one or more objects around a direction are read. -/
theorem ofJson_eq_ok_iff : ofJson value = .ok term ↔
    ∃ path text, Chain text (Path.segments path) value ∧
      Direction.SameButCase text term.direction.text ∧ path.toString = term.field := by
  constructor
  · intro read
    unfold ofJson at read
    split at read
    next first rest text found =>
      obtain ⟨direction, told, rfl⟩ := map_eq_ok.mp read
      exact ⟨⟨first, rest⟩, text, chain?_eq_some_iff.mp found, Direction.ofText_eq_ok_iff.mp told,
        rfl⟩
    next => cases read
  · rintro ⟨⟨first, rest⟩, text, chain, told, path⟩
    have found : chain? value = some (first :: rest, text) := chain?_eq_some_iff.mpr chain
    rw [ofJson, found]
    simp only [Direction.ofText_eq_ok_iff.mpr told, path]
    rfl

/-- Every ordering is read back. What is read is a chain of one or more objects around a direction,
and it is written as such a chain along the same path, split at all of its dots, with the direction
in capitals. -/
theorem ofJson_grammar :
    (∀ term : OrderTerm, ofJson term.toJson = .ok term) ∧
    ∀ value : Json,
      ((∃ term, ofJson value = .ok term) ↔
        ∃ path text, Chain text (Path.segments path) value ∧
          ∃ direction : Direction, Direction.SameButCase text direction.text) ∧
      ∀ term, ofJson value = .ok term →
        (∃ path text, Chain text (Path.segments path) value ∧
          ∃ split, Chain (Direction.upperAscii text) (Path.segments split) term.toJson ∧
            split.toString = path.toString ∧ ∀ segment ∈ split.segments, '.' ∉ segment.toList) ∧
        (ofJson term.toJson).map toJson = .ok term.toJson := by
  refine ⟨ofJson_toJson, fun value => ⟨⟨?_, ?_⟩, fun term read => ⟨?_, ?_⟩⟩⟩
  · rintro ⟨term, read⟩
    obtain ⟨path, text, chain, told, _⟩ := ofJson_eq_ok_iff.mp read
    exact ⟨path, text, chain, term.direction, told⟩
  · rintro ⟨path, text, chain, direction, told⟩
    exact ⟨⟨path.toString, direction⟩, ofJson_eq_ok_iff.mpr ⟨path, text, chain, told, rfl⟩⟩
  · obtain ⟨path, text, chain, told, field⟩ := ofJson_eq_ok_iff.mp read
    refine ⟨path, text, chain, Path.ofString term.field, ?_, ?_, Path.dotless_ofString _⟩
    · rw [Direction.upperAscii_eq_text_iff.mpr told]
      exact chain_nestSegments _ _ _
    · rw [Path.toString_ofString, field]
  · rw [ofJson_toJson]
    rfl

/-- Keys with dots, an empty key, and a direction in mixed case. -/
def dottedKeys : Json :=
  .single "owner.team" (.single "" (.single "name." (.string "desc_Nulls_lASt")))

theorem dottedKeys_grammar :
    ofJson dottedKeys = .ok ⟨"owner.team..name.", .descNullsLast⟩ ∧
      (∃ path text, Chain text (Path.segments path) dottedKeys ∧
        ∃ split, Chain (Direction.upperAscii text) (Path.segments split)
            (toJson ⟨"owner.team..name.", .descNullsLast⟩) ∧
          split.toString = path.toString ∧ ∀ segment ∈ split.segments, '.' ∉ segment.toList) ∧
      (ofJson (toJson ⟨"owner.team..name.", .descNullsLast⟩)).map toJson =
        .ok (toJson ⟨"owner.team..name.", .descNullsLast⟩) := by
  have read : ofJson dottedKeys = .ok ⟨"owner.team..name.", .descNullsLast⟩ := by rfl
  exact ⟨read, (ofJson_grammar.2 dottedKeys).2 _ read⟩

end OrderTerm

end GridQuery
