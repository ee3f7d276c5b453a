import GridQuery.Json.Parser
import GridQuery.View

/-!
Views in JSON text. A text is read from the front: an unreadable part is noticed before an error in
the form of the text that comes after it, and members with unknown names are skipped, so that only
their form matters.
-/

namespace GridQuery

/-- How the parts of a document are taken up: as a whole, not at all, or bit by bit. -/
inductive Outline where
  | whole
  | skipped
  | list (item : Outline)
  | record (members : List (String × Outline))

namespace Outline

/-- The outline of the part inside an open container. -/
def enter : Outline → Json.Frame → Outline
  | .list item, .inArray _ => item
  | .record members, .inObject _ name => (Named.find? name members).getD .skipped
  | .skipped, _ => .skipped
  | _, _ => .whole

/-- Whether the part inside the open containers, the innermost first, is skipped. -/
def skips (outline : Outline) (frames : List Json.Frame) : Bool :=
  match frames.foldr (fun frame outline => outline.enter frame) outline with
  | .skipped => true
  | _ => false

/-- The document that has been taken up where the text breaks off. The containers are given from
the outermost on; a part that is taken up as a whole counts only if it is complete. -/
def taken : Outline → List Json.Frame → Json.Awaited → Option Json
  | _, [], .separator value => some value
  | .record _, [], .firstName members => some (.object members.reverse)
  | .record _, [], .name members => some (.object members.reverse)
  | .record _, [], .colon members _ => some (.object members.reverse)
  | .list item, .inArray items :: frames, awaited =>
    some (.array (items.reverse ++ (taken item frames awaited).toList))
  | .record known, .inObject members name :: frames, awaited =>
    let last := taken ((Named.find? name known).getD .skipped) frames awaited
    some (.object (members.reverse ++ Json.optional name last))
  | _, _, _ => none
termination_by structural _ frames => frames

end Outline

namespace View

def wholeMembers (names : List String) : List (String × Outline) :=
  names.map fun name => (name, .whole)

def columnOutline : Outline :=
  .record (("data", .list .whole) :: wholeMembers ["id", "header"])

def schemaOutline : Outline :=
  .record [("groups", .list (.record (wholeMembers ["name", "label"]))),
    ("filters",
      .list (.record (wholeMembers ["id", "label", "expression", "group", "aiGenerated"])))]

def outline : Outline :=
  .record ([("columnDefinitions", .list columnOutline), ("filterSchema", schemaOutline),
    ("staticConditions", .list .whole), ("staticOrdering", .list .whole)] ++
    wholeMembers ["title", "collectionName", "boolExpType", "orderByType", "paginationKey"])

def strictness : Json.Strictness :=
  ⟨Json.nestingLimit, outline.skips⟩

/-- Where the text breaks off, what has been taken up may be unreadable already. -/
def readText (text : String) : Read View :=
  match Json.readText strictness text with
  | (state, true) =>
    match state.result? with
    | some document => read document
    | none => .error .malformed
  | (state, false) =>
    match (outline.taken state.frames.reverse state.awaited).map read with
    | some (.error fault) => .error fault
    | _ => .error .malformed

def ofText (text : String) : Except ViewError View := do
  (← (readText text).mapError .unreadable).validate

end View

end GridQuery
