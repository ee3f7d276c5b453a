import GridQuery.Json.Basic
import GridQuery.Proofs.Named

/-!
The value that a document stands for has the members of all its objects in order, and a document
that has them in order already stands for itself.
-/

namespace GridQuery.Json

theorem canonicalMembers_iff {members : List (String × Json)} :
    CanonicalMembers members ↔ ∀ member ∈ members, member.2.Canonical := by
  induction members with
  | nil => simp [CanonicalMembers]
  | cons member rest ih => simp [CanonicalMembers, ih]

theorem canonicalItems_iff {items : List Json} :
    CanonicalItems items ↔ ∀ item ∈ items, item.Canonical := by
  induction items with
  | nil => simp [CanonicalItems]
  | cons item rest ih => simp [CanonicalItems, ih]

theorem canonicalItems_eq_map (items : List Json) : canonicalItems items = items.map canonical := by
  induction items with
  | nil => rfl
  | cons item rest ih => rw [canonicalItems, ih, List.map_cons]

theorem Canonical.getOrNull {value : Json} (canonical : value.Canonical) (name : String) :
    (value.getOrNull name).Canonical := by
  cases value with
  | object members =>
    cases found : Named.find? name members with
    | none => simp [Json.getOrNull, get?, found, Canonical]
    | some member =>
      have inner := canonicalMembers_iff.mp canonical.2 _ (Named.mem_of_find?_eq_some found)
      simpa [Json.getOrNull, get?, found] using inner
  | null => trivial
  | bool value => trivial
  | number value => trivial
  | string text => trivial
  | array items => trivial

mutual

theorem canonical_canonical : ∀ document : Json, document.canonical.Canonical
  | .null => trivial
  | .bool _ => trivial
  | .number _ => trivial
  | .string _ => trivial
  | .array items => canonicalItems_canonical items
  | .object members => by
    refine ⟨Named.ascending_ofList _, canonicalMembers_iff.mpr ?_⟩
    intro member inside
    exact canonicalMembers_iff.mp (canonicalMembers_canonical members) member
      (Named.mem_of_mem_ofList inside)

theorem canonicalItems_canonical : ∀ items : List Json, CanonicalItems (canonicalItems items)
  | [] => trivial
  | item :: rest => ⟨canonical_canonical item, canonicalItems_canonical rest⟩

theorem canonicalMembers_canonical :
    ∀ members : List (String × Json), CanonicalMembers (canonicalMembers members)
  | [] => trivial
  | (_, value) :: rest => ⟨canonical_canonical value, canonicalMembers_canonical rest⟩

end

mutual

theorem Canonical.canonical_eq : ∀ {value : Json}, value.Canonical → value.canonical = value
  | .null, _ => rfl
  | .bool _, _ => rfl
  | .number _, _ => rfl
  | .string _, _ => rfl
  | .array items, ordered => congrArg array (CanonicalItems.canonicalItems_eq ordered)
  | .object members, ⟨ascending, ordered⟩ => by
    rw [canonical, CanonicalMembers.canonicalMembers_eq ordered, ascending.ofList_eq]

theorem CanonicalItems.canonicalItems_eq :
    ∀ {items : List Json}, CanonicalItems items → canonicalItems items = items
  | [], _ => rfl
  | item :: rest, ⟨first, later⟩ => by
    rw [canonicalItems, first.canonical_eq, later.canonicalItems_eq]

theorem CanonicalMembers.canonicalMembers_eq :
    ∀ {members : List (String × Json)}, CanonicalMembers members →
      canonicalMembers members = members
  | [], _ => rfl
  | (name, value) :: rest, ⟨first, later⟩ => by
    rw [canonicalMembers, first.canonical_eq, later.canonicalMembers_eq]

end

end GridQuery.Json
