import GridQuery.Proofs.Query.ValueText

/-!
The text of a forest of items tells the forest: the tree of its items with their names, fields and
arguments. Items are told one after the other. An item ends by itself, with a line break or with the
bracket after the items below it; a list of items ends where no item of its depth begins.
-/

namespace GridQuery

open Text

/-- What an item is written from, and all items below it. -/
structure Shown where
  name : Option String
  field : String
  arguments : List Argument
  selections : List Shown

namespace Selection

mutual

def shown : Selection → Shown
  | ⟨field, name, path, filter, orderBy, limit, offset, distinctOn, selections⟩ =>
    let own : Selection := ⟨field, name, path, filter, orderBy, limit, offset, distinctOn, []⟩
    ⟨name, field, own.arguments.map Argument.spread, shownOf selections⟩

def shownOf : List Selection → List Shown
  | [] => []
  | item :: rest => shown item :: shownOf rest

end

theorem shownOf_eq_map (items : List Selection) : shownOf items = items.map shown := by
  induction items with
  | nil => rfl
  | cons item rest ih => rw [shownOf, ih, List.map_cons]

theorem shown_eq (item : Selection) :
    item.shown = ⟨item.name, item.field, item.arguments.map Argument.spread,
      item.selections.map shown⟩ := by
  obtain ⟨⟩ := item
  rw [shown, shownOf_eq_map]
  rfl

/-- Everything that the item writes without quotes is a name, and the numbers in its filter are
among the given ones. -/
structure Bare (N : Number → Prop) (item : Selection) : Prop where
  field : isName item.field = true
  name : ∀ name ∈ item.name, isName name = true
  filter : ∀ condition ∈ item.filter, (∀ name ∈ condition.names, isName name = true) ∧
    ∀ operand ∈ condition.operands, (∀ key ∈ operand.keys, isName key = true) ∧
      ∀ number ∈ operand.numbers, N number
  orderBy : ∀ terms ∈ item.orderBy, ∀ term ∈ terms,
    ∀ segment ∈ (Path.ofString term.field).segments, isName segment = true
  distinctOn : ∀ names ∈ item.distinctOn, ∀ name ∈ names, isName name = true

/-- The property holds of an item and of all items below it. -/
inductive Throughout (P : Selection → Prop) : Selection → Prop
  | intro {item : Selection} :
    P item → (∀ inner ∈ item.selections, Throughout P inner) → Throughout P item

variable {N : Number → Prop}

theorem forall_mem_argument? {α : Type} {P : Argument → Prop} {name : String}
    {write : α → InputValue} {value : Option α} :
    (∀ argument ∈ argument? name (value.map write), P argument) ↔
      ∀ inner ∈ value, P ⟨name, write inner⟩ := by
  cases value <;> simp [argument?]

theorem isName_argument : ∀ name ∈ ["where", "orderBy", "distinctOn", "limit", "offset", "path"],
    isName name = true := by
  decide

theorem Bare.arguments {item : Selection} (bare : item.Bare N) :
    ∀ argument ∈ item.arguments.map Argument.spread, argument.Plain N := by
  refine List.forall_mem_map.mpr ?_
  simp only [Selection.arguments, List.forall_mem_append, forall_mem_argument?]
  refine ⟨⟨⟨⟨⟨fun condition given => ?_, fun terms given => ?_⟩, fun names given => ?_⟩,
    fun limit _ => ?_⟩, fun offset _ => ?_⟩, fun path _ => ?_⟩
  · obtain ⟨names, operands⟩ := bare.filter condition given
    refine ⟨isName_argument "where" (by decide), InputValue.Built.spread ?_
      ((InputValue.hereditary_built _).condition condition names operands)⟩
    rintro _ ⟨operand, rfl, keys, numbers⟩
    exact InputValue.built_ofJson operand keys numbers
  · refine ⟨isName_argument "orderBy" (by decide),
      InputValue.Built.spread (fun _ => InputValue.isEnum_spread)
      (.list (List.forall_mem_map.mpr fun term inside => ?_))⟩
    exact InputValue.built_ofOrderTerm (bare.orderBy terms given term inside)
  · refine ⟨isName_argument "distinctOn" (by decide),
      InputValue.Built.spread (fun _ => InputValue.isEnum_spread)
      (.list (List.forall_mem_map.mpr fun name inside => .leaf ?_))⟩
    exact bare.distinctOn names given name inside
  · exact ⟨isName_argument "limit" (by decide), .leaf ⟨limit, rfl⟩⟩
  · exact ⟨isName_argument "offset" (by decide), .leaf ⟨offset, rfl⟩⟩
  · exact ⟨isName_argument "path" (by decide), .leaf trivial⟩

/-- What comes after the arguments. -/
def bodyChars (depth : Nat) (selections : List Selection) : List Char :=
  if selections.isEmpty then ['\n']
  else [' ', '\x7b', '\n'] ++ Document.selectionsChars (depth + 1) selections ++
    Document.indent depth ++ ['\x7d', '\n']

theorem selectionChars_eq (depth : Nat) (item : Selection) :
    Document.selectionChars depth item =
      Document.indent depth ++ (Document.nameChars item.name ++ (item.field.toList ++
        (Document.argumentsChars (item.arguments.map Argument.spread) ++
          bodyChars depth item.selections))) := by
  obtain ⟨field, name, path, filter, orderBy, limit, offset, distinctOn, selections⟩ := item
  simp only [Document.selectionChars, Argument.argumentsChars_spread, bodyChars,
    List.append_assoc]
  rfl

theorem selectionsChars_cons (depth : Nat) (item : Selection) (rest : List Selection) :
    Document.selectionsChars depth (item :: rest) =
      Document.selectionChars depth item ++ Document.selectionsChars depth rest := by
  rw [Document.selectionsChars]

/-- The field of an item ends here. -/
def AfterField (rest : List Char) : Prop :=
  ∃ c tail, rest = c :: tail ∧ (c = '(' ∨ c = ' ' ∨ c = '\n')

theorem AfterField.atBreak {rest : List Char} (after : AfterField rest) : AtBreak rest := by
  obtain ⟨c, tail, rfl, rfl | rfl | rfl⟩ := after <;> exact atBreak_cons (by decide)

theorem AfterField.ne_colon {rest tail : List Char} (after : AfterField rest) :
    rest ≠ ':' :: tail := by
  obtain ⟨c, tail, rfl, rfl | rfl | rfl⟩ := after <;>
    exact fun same => absurd (List.cons.inj same).1 (by decide)

theorem heading_tells {name name' : Option String} {field field' : String}
    {rest rest' : List Char} (named : ∀ own ∈ name, isName own = true)
    (named' : ∀ own ∈ name', isName own = true) (bare : isName field = true)
    (bare' : isName field' = true) (after : AfterField rest) (after' : AfterField rest')
    (same : Document.nameChars name ++ (field.toList ++ rest) =
      Document.nameChars name' ++ (field'.toList ++ rest')) :
    name = name' ∧ field = field' ∧ rest = rest' := by
  cases name with
  | none =>
    cases name' with
    | none =>
      exact ⟨rfl, name_tells bare bare' after.atBreak after'.atBreak same⟩
    | some own =>
      simp only [Document.nameChars, List.append_assoc, List.nil_append] at same
      obtain ⟨_, colon⟩ :=
        name_tells bare (named' own rfl) after.atBreak (atBreak_cons (by decide)) same
      exact absurd colon after.ne_colon
  | some own =>
    cases name' with
    | none =>
      simp only [Document.nameChars, List.append_assoc, List.nil_append] at same
      obtain ⟨_, colon⟩ :=
        name_tells (named own rfl) bare' (atBreak_cons (by decide)) after'.atBreak same
      exact absurd colon.symm after'.ne_colon
    | some other =>
      simp only [Document.nameChars, List.append_assoc] at same
      obtain ⟨rfl, fields⟩ := name_tells (named own rfl) (named' other rfl)
        (atBreak_cons (by decide)) (atBreak_cons (by decide)) same
      have fields := (List.cons.inj (List.cons.inj fields).2).2
      exact ⟨rfl, name_tells bare bare' after.atBreak after'.atBreak fields⟩

theorem bodyChars_begins (depth : Nat) (selections : List Selection) (rest : List Char) :
    ∃ c tail, bodyChars depth selections ++ rest = c :: tail ∧ (c = ' ' ∨ c = '\n') := by
  cases selections with
  | nil => exact ⟨'\n', _, rfl, .inr rfl⟩
  | cons item others => exact ⟨' ', _, rfl, .inl rfl⟩

theorem afterField_arguments (arguments : List Argument) {depth : Nat}
    {selections : List Selection} {rest : List Char} :
    AfterField (Document.argumentsChars arguments ++ (bodyChars depth selections ++ rest)) := by
  cases arguments with
  | nil =>
    obtain ⟨c, tail, begins, mark⟩ := bodyChars_begins depth selections rest
    exact ⟨c, tail, begins, .inr mark⟩
  | cons argument others => exact ⟨'(', _, rfl, .inl rfl⟩

theorem bodyChars_ne_bracket (depth : Nat) (selections : List Selection)
    (rest tail : List Char) : bodyChars depth selections ++ rest ≠ '(' :: tail := by
  obtain ⟨c, text, begins, rfl | rfl⟩ := bodyChars_begins depth selections rest <;>
    exact fun same => absurd (List.cons.inj (begins.symm.trans same)).1 (by decide)

theorem Throughout.here {P : Selection → Prop} {item : Selection} (all : item.Throughout P) :
    P item := by
  cases all with
  | intro own _ => exact own

theorem Bare.begins {item : Selection} (bare : item.Bare N) (depth : Nat) :
    ∃ text tail, Begun text ∧
      Document.selectionChars depth item = Document.indent depth ++ (text ++ tail) := by
  rw [selectionChars_eq]
  cases named : item.name with
  | none => exact ⟨_, _, begun_of_isName bare.field, rfl⟩
  | some own =>
    rw [Document.nameChars, List.append_assoc]
    exact ⟨_, _, begun_of_isName (bare.name own named), rfl⟩

/-- No item of this depth begins here. -/
def Closes (depth : Nat) (rest : List Char) : Prop :=
  ∀ text tail, Begun text → rest ≠ Document.indent depth ++ (text ++ tail)

theorem closes_nil (depth : Nat) : Closes depth [] := by
  rintro text tail ⟨c, others, rfl, _⟩
  simp

theorem closes_bracket (depth : Nat) (rest : List Char) :
    Closes (depth + 1) (Document.indent depth ++ '\x7d' :: rest) := by
  intro text tail _ same
  have deeper : Document.indent (depth + 1) = Document.indent depth ++ [' ', ' '] :=
    List.replicate_add ..
  rw [deeper, List.append_assoc] at same
  exact absurd (List.cons.inj (List.append_cancel_left same)).1 (by decide)

/-- The text of the item tells what it shows, whatever comes after it. -/
def Told (N : Number → Prop) (item : Selection) : Prop :=
  ∀ ⦃depth other rest rest'⦄, other.Throughout (Bare N) →
    Document.selectionChars depth item ++ rest = Document.selectionChars depth other ++ rest' →
      item.shown = other.shown ∧ rest = rest'

/-- Items of one depth are told one after the other, up to where no item begins. -/
theorem forest_tells {depth : Nat} {items others : List Selection} {rest rest' : List Char}
    (told : ∀ item ∈ items, item.Told N) (bare : ∀ item ∈ items, item.Throughout (Bare N))
    (bare' : ∀ other ∈ others, other.Throughout (Bare N)) (closes : Closes depth rest)
    (closes' : Closes depth rest')
    (same : Document.selectionsChars depth items ++ rest =
      Document.selectionsChars depth others ++ rest') :
    items.map shown = others.map shown ∧ rest = rest' := by
  induction items generalizing others with
  | nil =>
    cases others with
    | nil => exact ⟨rfl, same⟩
    | cons other others =>
      obtain ⟨text, tail, begun, begins⟩ :=
        (bare' other (List.mem_cons_self ..)).here.begins depth
      rw [selectionsChars_cons, begins, List.append_assoc, List.append_assoc,
        List.append_assoc] at same
      exact absurd same (closes _ _ begun)
  | cons item items ih =>
    cases others with
    | nil =>
      obtain ⟨text, tail, begun, begins⟩ := (bare item (List.mem_cons_self ..)).here.begins depth
      rw [selectionsChars_cons, begins, List.append_assoc, List.append_assoc,
        List.append_assoc] at same
      exact absurd same.symm (closes' _ _ begun)
    | cons other others =>
      obtain ⟨here, later⟩ := List.forall_mem_cons.mp told
      obtain ⟨bareOther, bareOthers⟩ := List.forall_mem_cons.mp bare'
      rw [selectionsChars_cons, selectionsChars_cons, List.append_assoc, List.append_assoc] at same
      obtain ⟨shown, tails⟩ := here bareOther same
      obtain ⟨showns, continued⟩ :=
        ih later (List.forall_mem_cons.mp bare).2 bareOthers tails
      exact ⟨by rw [List.map_cons, List.map_cons, shown, showns], continued⟩

theorem body_tells {depth : Nat} {items others : List Selection} {rest rest' : List Char}
    (told : ∀ item ∈ items, item.Told N) (bare : ∀ item ∈ items, item.Throughout (Bare N))
    (bare' : ∀ other ∈ others, other.Throughout (Bare N))
    (same : bodyChars depth items ++ rest = bodyChars depth others ++ rest') :
    items.map shown = others.map shown ∧ rest = rest' := by
  cases items with
  | nil =>
    cases others with
    | nil => exact ⟨rfl, (List.cons.inj same).2⟩
    | cons other others => exact absurd (List.cons.inj same).1 (by decide)
  | cons item items =>
    cases others with
    | nil => exact absurd (List.cons.inj same).1 (by decide)
    | cons other others =>
      simp only [bodyChars, List.isEmpty_cons, Bool.false_eq_true, if_false, List.append_assoc,
        List.cons_append, List.nil_append, List.cons.injEq, true_and] at same
      obtain ⟨selections, ends⟩ := forest_tells told bare bare' (closes_bracket _ _)
        (closes_bracket _ _) same
      exact ⟨selections, by simpa using ends⟩

/-- By induction on the item: it is told if all items below it are. -/
theorem Throughout.told (told : Json.NumbersTold N) {item : Selection}
    (bare : item.Throughout (Bare N)) : item.Told N := by
  induction bare with
  | @intro item own inner ih =>
    intro depth other rest rest' bare' same
    obtain ⟨own', inner'⟩ := bare'
    rw [selectionChars_eq, selectionChars_eq] at same
    simp only [List.append_assoc] at same
    obtain ⟨names, fields, same⟩ := heading_tells own.name own'.name own.field own'.field
      (afterField_arguments _) (afterField_arguments _) (List.append_cancel_left same)
    obtain ⟨arguments, same⟩ := Argument.list_tells told own.arguments own'.arguments
      (bodyChars_ne_bracket _ _ _) (bodyChars_ne_bracket _ _ _) same
    obtain ⟨selections, continued⟩ := body_tells ih inner inner' same
    exact ⟨by rw [shown_eq, shown_eq, names, fields, arguments, selections], continued⟩

mutual

/-- What an item shows is all that its text depends on. -/
theorem selectionChars_congr : ∀ (depth : Nat) (item : Selection) {other : Selection},
    item.shown = other.shown →
      Document.selectionChars depth item = Document.selectionChars depth other
  | depth, ⟨field, name, path, filter, orderBy, limit, offset, distinctOn, selections⟩, other,
      same => by
    rw [shown_eq, shown_eq, Shown.mk.injEq] at same
    obtain ⟨names, fields, arguments, below⟩ := same
    have text := selectionsChars_congr (depth + 1) selections below
    have none : selections.isEmpty = other.selections.isEmpty := by
      simpa using congrArg List.isEmpty below
    rw [selectionChars_eq, selectionChars_eq, names, fields, arguments, bodyChars, bodyChars, none]
    simp only [text]

theorem selectionsChars_congr :
    ∀ (depth : Nat) (items : List Selection) {others : List Selection},
    items.map shown = others.map shown →
      Document.selectionsChars depth items = Document.selectionsChars depth others
  | _, [], [], _ => rfl
  | depth, item :: rest, other :: others, same => by
    obtain ⟨here, later⟩ := List.cons.inj same
    rw [selectionsChars_cons, selectionsChars_cons, selectionChars_congr depth item here,
      selectionsChars_congr depth rest later]

end

/-- The text of a forest tells what it shows. -/
theorem selectionsChars_eq_iff (told : Json.NumbersTold N) {items others : List Selection}
    (bare : ∀ item ∈ items, item.Throughout (Bare N))
    (bare' : ∀ other ∈ others, other.Throughout (Bare N)) (depth : Nat) :
    Document.selectionsChars depth items = Document.selectionsChars depth others ↔
      items.map shown = others.map shown := by
  constructor
  · intro same
    rw [← List.append_nil (Document.selectionsChars depth items),
      ← List.append_nil (Document.selectionsChars depth others)] at same
    exact (forest_tells (fun item inside => (bare item inside).told told) bare bare'
      (closes_nil depth) (closes_nil depth) same).1
  · exact selectionsChars_congr depth items

theorem bare_plain {field : String} (named : isName field = true) : (plain field).Bare N :=
  ⟨named, nofun, nofun, nofun, nofun⟩

/-- The first tasks of an owner, with a text that looks like the end of its object. -/
def ownedTasks (filter : FieldCondition) : Selection :=
  { plain "tasks" with
    name := some "first"
    filter := some (.field "owner" filter)
    orderBy := some [⟨"due.day", .desc⟩]
    limit := some 3
    selections := [plain "title"] }

def ownerNested : FieldCondition :=
  .nested (.and [.field "name" (.comparison ⟨.eq, .string "a\"\x7d]"⟩),
    .field "rank" (.comparison ⟨.gt, .int 1⟩)])

/-- The same condition as the operand of a comparison. -/
def ownerCompared : FieldCondition :=
  .comparison ⟨.custom "_and", .array [.single "name" (.single "_eq" (.string "a\"\x7d]")),
    .single "rank" (.single "_gt" (.int 1))]⟩

theorem throughout_ownedTasks {filter : FieldCondition}
    (names : ∀ name ∈ filter.names, isName name = true)
    (operands : ∀ operand ∈ filter.operands, (∀ key ∈ operand.keys, isName key = true) ∧
      ∀ number ∈ operand.numbers, N number) :
    (ownedTasks filter).Throughout (Bare N) := by
  refine .intro ⟨(by decide : isName "tasks" = true), ?_, ?_, ?_, ?_⟩ ?_
  · rintro _ ⟨⟩
    decide
  · rintro _ ⟨⟩
    simp only [Condition.field, Condition.names, FieldCondition.namesOfEntries, List.append_nil,
      Condition.operands, FieldCondition.operandsOfEntries]
    exact ⟨List.forall_mem_cons.mpr ⟨by decide, names⟩, operands⟩
  · rintro _ ⟨⟩
    decide
  · rintro _ ⟨⟩
  · exact List.forall_mem_singleton.mpr
      (.intro (bare_plain (by decide)) (List.forall_mem_nil _))

/-- A condition and an operand that reads like it are written alike, so that the two requests show
the same. -/
theorem ownedTasks_shown :
    Document.selectionsChars 0 [ownedTasks ownerNested] =
        Document.selectionsChars 0 [ownedTasks ownerCompared] ∧
      [ownedTasks ownerNested].map shown = [ownedTasks ownerCompared].map shown := by
  have told : Json.NumbersTold (fun number => number = .integer 1) := by
    rintro _ _ rfl rfl _
    rfl
  have text : Document.selectionsChars 0 [ownedTasks ownerNested] =
      Document.selectionsChars 0 [ownedTasks ownerCompared] := by
    decide +kernel
  refine ⟨text, (selectionsChars_eq_iff told ?_ ?_ 0).mp text⟩
  · refine List.forall_mem_singleton.mpr (throughout_ownedTasks (by decide) ?_)
    simp [ownerNested, FieldCondition.operands, Condition.operands, Condition.operandsOfList,
      Condition.field, FieldCondition.operandsOfEntries, Json.keys, Json.numbers, Json.int]
  · refine List.forall_mem_singleton.mpr (throughout_ownedTasks (by decide) ?_)
    simp [ownerCompared, FieldCondition.operands, Json.keys, Json.keysOfItems, Json.keysOfMembers,
      Json.single, Json.numbers, Json.numbersOfItems, Json.numbersOfMembers, Json.int]
    decide

end Selection

end GridQuery
