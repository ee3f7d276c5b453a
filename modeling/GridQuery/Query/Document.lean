import GridQuery.Query.InputValue

/-!
Query documents and their text, indented by two spaces per level.
-/

namespace GridQuery

structure VariableDefinition where
  name : String
  type : String

structure Document where
  operation : String
  definitions : List VariableDefinition
  field : String
  arguments : List Argument
  selections : List Selection

namespace Document

def indent (depth : Nat) : List Char :=
  List.replicate (2 * depth) ' '

def argumentChars (argument : Argument) : List Char :=
  argument.name.toList ++ ':' :: ' ' :: argument.value.chars

/-- Nothing is written where there are no arguments. -/
def argumentsChars (arguments : List Argument) : List Char :=
  if arguments.isEmpty then []
  else '(' :: Json.separated [',', ' '] (arguments.map argumentChars) ++ [')']

def nameChars : Option String → List Char
  | some name => name.toList ++ [':', ' ']
  | none => []

mutual

def selectionChars (depth : Nat) : Selection → List Char
  | ⟨field, name, path, filter, orderBy, limit, offset, distinctOn, selections⟩ =>
    let own : Selection := ⟨field, name, path, filter, orderBy, limit, offset, distinctOn, []⟩
    indent depth ++ nameChars name ++ field.toList ++ argumentsChars own.arguments ++
      (if selections.isEmpty then ['\n']
        else [' ', '\x7b', '\n'] ++ selectionsChars (depth + 1) selections ++
          indent depth ++ ['\x7d', '\n'])

def selectionsChars (depth : Nat) : List Selection → List Char
  | [] => []
  | item :: rest => selectionChars depth item ++ selectionsChars depth rest

end

def selectionsText (selections : List Selection) : String :=
  String.ofList (selectionsChars 0 selections)

def definitionChars (definition : VariableDefinition) : List Char :=
  '$' :: definition.name.toList ++ ':' :: ' ' :: definition.type.toList

def definitionsChars (definitions : List VariableDefinition) : List Char :=
  if definitions.isEmpty then []
  else '(' :: Json.separated [',', ' '] (definitions.map definitionChars) ++ [')']

def chars (document : Document) : List Char :=
  "query ".toList ++ document.operation.toList ++ definitionsChars document.definitions ++
    [' ', '\x7b', '\n'] ++ indent 1 ++ document.field.toList ++
    argumentsChars document.arguments ++ [' ', '\x7b', '\n'] ++
    selectionsChars 2 document.selections ++ indent 1 ++ ['\x7d', '\n', '\x7d', '\n']

def text (document : Document) : String :=
  String.ofList document.chars

end Document

end GridQuery
