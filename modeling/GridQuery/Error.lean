import GridQuery.Json.Printer

/-!
What can go wrong, by cause. Every cause has one text; `ViewError.code` names its family.
-/

namespace GridQuery

/-- The four kinds of nodes of filter expressions and of form states. -/
inductive NodeKind where
  | leaf
  | and
  | or
  | not
deriving DecidableEq

def NodeKind.text : NodeKind → String
  | .leaf => "leaf"
  | .and => "and"
  | .or => "or"
  | .not => "not"

/-- Why a JSON value is not a condition. -/
inductive ConditionFault where
  | notObject (found : Json)
  | notList (key : String)
  | listEntry (field : String)
  | listEntryKeys (field : String)
  | fieldValue (field : String) (found : Json)
  | described (text : String)

def ConditionFault.text : ConditionFault → String
  | .notObject found => "condition must be an object, got " ++ found.compact
  | .notList key => key ++ " must hold an array of conditions"
  | .listEntry field => "operator list for '" ++ field ++ "' must contain objects"
  | .listEntryKeys field =>
    "operator list for '" ++ field ++ "' contains a non-operator object"
  | .fieldValue field found =>
    "field '" ++ field ++ "' must map to an object or array, got " ++ found.compact
  | .described text => text

/-- Why a JSON value is not an ordering or a field request. -/
inductive QueryFault where
  | direction (text : String)
  | ordering (found : Json)
  | operandKey (key : String)
  | described (text : String)

def QueryFault.text : QueryFault → String
  | .direction text => "unknown order direction '" ++ text ++ "'"
  | .ordering found =>
    "ordering must be a single-key object ending in a direction, got " ++ found.compact
  | .operandKey key => "where operand key '" ++ key ++ "' is not a GraphQL name"
  | .described text => text

inductive ArgumentFault where
  | emptyFilter
  | emptyGroup
  | emptyCollection
  | paginationKey
  | described (text : String)

def ArgumentFault.text : ArgumentFault → String
  | .emptyFilter => "filter builder requires at least one filter"
  | .emptyGroup => "filter group must contain at least one filter"
  | .emptyCollection => "view collectionName must not be empty"
  | .paginationKey => "view paginationKey must be a dotted field path"
  | .described text => text

/-- Why JSON is not of the type that it is read as: its text or its structure is wrong, or it holds
a value that is no condition or no field request. -/
inductive ReadFault where
  | malformed
  | condition (fault : ConditionFault)
  | query (fault : QueryFault)

def conditionText (fault : ConditionFault) : String :=
  "invalid condition: " ++ fault.text

def queryText (fault : QueryFault) : String :=
  "invalid field query: " ++ fault.text

def ReadFault.text : ReadFault → String
  | .malformed => "malformed JSON"
  | .condition fault => conditionText fault
  | .query fault => queryText fault

/-- Why a file has no text. -/
inductive FileFault where
  | missing
  | directory
  | notDirectory
  | undecodable
deriving DecidableEq

def FileFault.text : FileFault → String
  | .missing => "No such file or directory (os error 2)"
  | .directory => "Is a directory (os error 21)"
  | .notDirectory => "Not a directory (os error 20)"
  | .undecodable => "stream did not contain valid UTF-8"

inductive ViewError where
  | schemaMismatch (expected found : NodeKind)
  | missingChildSchema (index : Nat)
  | invalidCondition (fault : ConditionFault)
  | invalidFieldQuery (fault : QueryFault)
  | invalid (fault : ArgumentFault)
  | unknownCapability (family key : String)
  | invalidDate (field : String) (value : Json)
  | unreadableFile (path : String) (fault : FileFault)
  | unreadable (fault : ReadFault)
  | beyondCalendar

namespace ViewError

def code : ViewError → String
  | .schemaMismatch _ _ => "SchemaMismatch"
  | .missingChildSchema _ => "MissingChildSchema"
  | .invalidCondition _ => "InvalidCondition"
  | .invalidFieldQuery _ => "InvalidFieldQuery"
  | .invalid _ => "Invalid"
  | .unknownCapability _ _ => "UnknownCapability"
  | .invalidDate _ _ => "InvalidDate"
  | .unreadableFile _ _ => "Io"
  | .unreadable _ => "Json"
  | .beyondCalendar => "BeyondCalendar"

def text : ViewError → String
  | .schemaMismatch expected found =>
    "filter schema mismatch: expected " ++ expected.text ++ " node, found " ++ found.text
  | .missingChildSchema index =>
    "missing schema for child at index " ++ String.ofList (Json.decimalChars index)
  | .invalidCondition fault => conditionText fault
  | .invalidFieldQuery fault => queryText fault
  | .invalid fault => "invalid argument: " ++ fault.text
  | .unknownCapability family key => "unknown " ++ family ++ " '" ++ key ++ "'"
  | .invalidDate field value =>
    "invalid date '" ++ value.compact ++ "' for field '" ++ field ++ "'"
  | .unreadableFile path fault => "failed to read " ++ path ++ ": " ++ fault.text
  | .unreadable fault => fault.text
  | .beyondCalendar => "date falls after the last year of the calendar"

def coded (error : ViewError) : String :=
  "[" ++ error.code ++ "] " ++ error.text

end ViewError

end GridQuery
