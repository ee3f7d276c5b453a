import GridQuery.Json.Printer
import GridQuery.Text.Name

/-!
Texts that tell what was written. A text tells a value among the valid ones if, in front of
whatever follows, only the same value with the same continuation gives the same text. Words tell
themselves in front of a break, and lists with separators and brackets tell their elements if each
element is told.
-/

namespace GridQuery.Text

/-- The characters of names, of numbers and of the words `true`, `false` and `null`. -/
def isWordPart (c : Char) : Bool :=
  isNameChar c || c = '.' || c = '+' || c = '-'

/-- No word goes on here. -/
def AtBreak (rest : List Char) : Prop :=
  ∀ c ∈ rest.head?, isWordPart c = false

theorem atBreak_cons {c : Char} {rest : List Char} (other : isWordPart c = false) :
    AtBreak (c :: rest) := by
  rintro _ ⟨⟩
  exact other

def IsWord (text : List Char) : Prop :=
  ∀ c ∈ text, isWordPart c = true

instance (text : List Char) : Decidable (IsWord text) :=
  List.decidableBAll (isWordPart · = true) text

theorem word_tells {word other rest rest' : List Char} (isWord : IsWord word)
    (isOther : IsWord other) (after : AtBreak rest) (after' : AtBreak rest')
    (same : word ++ rest = other ++ rest') : word = other ∧ rest = rest' := by
  induction word generalizing other with
  | nil =>
    cases other with
    | nil => exact ⟨rfl, same⟩
    | cons c other =>
      cases same
      cases (isOther c (List.mem_cons_self ..)).symm.trans (after c rfl)
  | cons c word ih =>
    cases other with
    | nil =>
      cases same
      cases (isWord c (List.mem_cons_self ..)).symm.trans (after' c rfl)
    | cons d other =>
      obtain ⟨rfl, tails⟩ := List.cons.inj same
      obtain ⟨rfl, continued⟩ := ih (fun c member => isWord c (List.mem_cons_of_mem _ member))
        (fun c member => isOther c (List.mem_cons_of_mem _ member)) tails
      exact ⟨rfl, continued⟩

theorem isName_iff {name : String} :
    isName name = true ↔ ∃ c rest, name.toList = c :: rest ∧ isNameStart c = true ∧
      ∀ d ∈ rest, isNameChar d = true := by
  rw [isName]
  cases name.toList with
  | nil => simp
  | cons c rest => simp [and_assoc]

theorem isNameChar_of_isNameStart {c : Char} (start : isNameStart c = true) :
    isNameChar c = true := by
  simp only [isNameStart, isNameChar, Char.isAlphanum, Bool.or_eq_true] at start ⊢
  exact start.imp_right .inl

theorem isWord_of_isName {name : String} (isName : isName name = true) : IsWord name.toList := by
  obtain ⟨c, rest, chars, start, others⟩ := isName_iff.mp isName
  rw [chars]
  refine List.forall_mem_cons.mpr ⟨?_, fun d member => ?_⟩
  · simp [isWordPart, isNameChar_of_isNameStart start]
  · simp [isWordPart, others d member]

theorem name_tells {name other : String} {rest rest' : List Char} (named : isName name = true)
    (named' : isName other = true) (after : AtBreak rest) (after' : AtBreak rest')
    (same : name.toList ++ rest = other.toList ++ rest') : name = other ∧ rest = rest' := by
  obtain ⟨chars, continued⟩ :=
    word_tells (isWord_of_isName named) (isWord_of_isName named') after after' same
  exact ⟨String.ext_iff.mpr chars, continued⟩

/-- A word or a quoted text begins here. -/
def Begun (text : List Char) : Prop :=
  ∃ c rest, text = c :: rest ∧ (isWordPart c = true ∨ c = '"')

theorem Begun.unlike {text : List Char} (begun : Begun text) {mark : Char}
    (other : isWordPart mark = false) (unquoted : mark ≠ '"') (rest rest' : List Char) :
    text ++ rest ≠ mark :: rest' := by
  obtain ⟨c, text, rfl, start⟩ := begun
  intro same
  obtain ⟨rfl, _⟩ := List.cons.inj same
  rcases start with word | quote
  · cases word.symm.trans other
  · exact unquoted quote

theorem begun_of_isName {name : String} (named : isName name = true) : Begun name.toList := by
  obtain ⟨c, rest, chars, start, _⟩ := isName_iff.mp named
  exact ⟨c, rest, chars, .inl (by simp [isWordPart, isNameChar_of_isNameStart start])⟩

section

variable {α : Type}

/-- In front of a break, the text tells the value among the valid ones. -/
def Tells (print : α → List Char) (valid : α → Prop) (value : α) : Prop :=
  ∀ ⦃other rest rest'⦄, valid other → AtBreak rest → AtBreak rest' →
    print value ++ rest = print other ++ rest' → value = other ∧ rest = rest'

/-- The text of every valid value begins otherwise. -/
def Unlike (print : α → List Char) (valid : α → Prop) (closing : Char) : Prop :=
  ∀ value, valid value → ∀ rest rest', print value ++ rest ≠ closing :: rest'

theorem separated_cons (separator piece : List Char) (pieces : List (List Char)) :
    Json.separated separator (piece :: pieces) =
      piece ++ pieces.flatMap fun next => separator ++ next := by
  induction pieces generalizing piece with
  | nil => simp [Json.separated]
  | cons next rest ih => simp [Json.separated, ih]

variable {print : α → List Char} {valid : α → Prop} {closing : Char}
  {values others : List α} {rest rest' : List Char}

theorem atBreak_tail (ends : isWordPart closing = false) (items : List α) (rest : List Char) :
    AtBreak ((items.flatMap fun item => [',', ' '] ++ print item) ++ closing :: rest) := by
  cases items with
  | nil => exact atBreak_cons ends
  | cons item items => exact atBreak_cons (by decide)

/-- The elements after the first one, each after a separator. -/
theorem tail_tells (ends : isWordPart closing = false) (unlike : closing ≠ ',')
    (tells : ∀ value ∈ values, Tells print valid value) (each : ∀ other ∈ others, valid other)
    (same : (values.flatMap fun value => [',', ' '] ++ print value) ++ closing :: rest =
      (others.flatMap fun other => [',', ' '] ++ print other) ++ closing :: rest') :
    values = others ∧ rest = rest' := by
  induction values generalizing others with
  | nil =>
    cases others with
    | nil => exact ⟨rfl, (List.cons.inj same).2⟩
    | cons other others => exact absurd (List.cons.inj same).1 unlike
  | cons value values ih =>
    cases others with
    | nil => exact absurd (List.cons.inj same).1.symm unlike
    | cons other others =>
      obtain ⟨here, later⟩ := List.forall_mem_cons.mp tells
      obtain ⟨validOther, validOthers⟩ := List.forall_mem_cons.mp each
      simp only [List.flatMap_cons, List.append_assoc, List.cons_append, List.nil_append,
        List.cons.injEq, true_and] at same
      obtain ⟨rfl, tails⟩ := here validOther (atBreak_tail ends _ _) (atBreak_tail ends _ _) same
      obtain ⟨rfl, continued⟩ := ih later validOthers tails
      exact ⟨rfl, continued⟩

/-- A list between brackets tells its elements, whatever comes after it. -/
theorem list_tells (ends : isWordPart closing = false) (unlike : closing ≠ ',')
    (opens : Unlike print valid closing) (tells : ∀ value ∈ values, Tells print valid value)
    (first : ∀ value ∈ values, valid value) (each : ∀ other ∈ others, valid other)
    (same : Json.separated [',', ' '] (values.map print) ++ closing :: rest =
      Json.separated [',', ' '] (others.map print) ++ closing :: rest') :
    values = others ∧ rest = rest' := by
  cases values with
  | nil =>
    cases others with
    | nil => exact ⟨rfl, (List.cons.inj same).2⟩
    | cons other others =>
      rw [List.map_cons, separated_cons, List.append_assoc] at same
      exact absurd same.symm (opens other (each other (List.mem_cons_self ..)) _ _)
  | cons value values =>
    cases others with
    | nil =>
      rw [List.map_cons, separated_cons, List.append_assoc] at same
      exact absurd same (opens value (first value (List.mem_cons_self ..)) _ _)
    | cons other others =>
      obtain ⟨here, later⟩ := List.forall_mem_cons.mp tells
      obtain ⟨validOther, validOthers⟩ := List.forall_mem_cons.mp each
      simp only [List.map_cons, separated_cons, List.flatMap_map, List.append_assoc] at same
      obtain ⟨rfl, tails⟩ := here validOther (atBreak_tail ends _ _) (atBreak_tail ends _ _) same
      obtain ⟨rfl, continued⟩ := tail_tells ends unlike later validOthers tails
      exact ⟨rfl, continued⟩

end

end GridQuery.Text
