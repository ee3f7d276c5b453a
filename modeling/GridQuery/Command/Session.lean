import GridQuery.Command.Arguments
import GridQuery.Command.Config
import GridQuery.Command.Report
import GridQuery.Form.Persistence
import GridQuery.Form.Suggestion
import GridQuery.Paging.Planner
import GridQuery.View.Text

/-!
Runs of the command line. Files are read through a function that the caller supplies, so a run is a
function of its arguments, its environment and the files.
-/

namespace GridQuery.Command

inductive CommandError where
  | config (fault : ConfigFault)
  | view (error : ViewError)
  | noView

def CommandError.text : CommandError → String
  | .config fault => fault.text
  | .view error => error.text
  | .noView => "no view given; pass VIEW or select a profile with a view"

structure Environment where
  configVariable : Option String
  defaultConfig : Option String

inductive Outcome where
  | finished (output : String)
  | failed (error : CommandError)
  | refused

section

variable {m : Type → Type} [Monad m]

abbrev Run (m : Type → Type) := ExceptT CommandError m

abbrev ReadFile (m : Type → Type) := String → m (Except FileFault String)

def defaultRowLimit : Nat := 50

def versionText : String := "viewgrid 0.1.0"

/-- The configuration file named by an option, the environment or the user's default. A file that
does not exist is an empty configuration. -/
def loadConfig (readFile : ReadFile m) (environment : Environment) (option : Option String) :
    Run m Config := do
  match (option.or environment.configVariable).or environment.defaultConfig with
  | none => return .empty
  | some path =>
    match ← (readFile path : m _) with
    | .ok text =>
      match Config.ofText path text with
      | .ok config => return config
      | .error fault => throw (.config fault)
    | .error .missing | .error .notDirectory => return .empty
    | .error fault => throw (.config (.unreadable path fault))

def loadText (readFile : ReadFile m) (path : String) : Run m String := do
  match ← (readFile path : m _) with
  | .ok text => return text
  | .error fault => throw (.view (.unreadableFile path fault))

def ofView {α : Type} (result : Except ViewError α) : Run m α :=
  match result with
  | .ok value => pure value
  | .error error => throw (.view error)

def parseJson (text : String) : Run m Json :=
  match Json.parse? text with
  | some value => pure value
  | none => throw (.view (.unreadable .malformed))

def loadJson (readFile : ReadFile m) (path : String) : Run m Json := do
  parseJson (← loadText readFile path)

/-- The view at the given path or at that of the profile, with its hooks resolved. -/
def loadView (readFile : ReadFile m) (profile : Option Profile) (path : Option String) :
    Run m View := do
  match path.or (profile.bind Profile.view) with
  | none => throw .noView
  | some path =>
    let view ← ofView (View.ofText (← loadText readFile path))
    ofView (view.resolve .builtins)

/-- The saved states at the given path or at that of the profile, or else the initial ones. -/
def loadStates (readFile : ReadFile m) (profile : Option Profile) (path : Option String)
    (view : View) : Run m FormStates := do
  match path.or (profile.bind Profile.state) with
  | none => return .start .declared view.schema
  | some path => ofView (FormStates.load view.schema (← loadJson readFile path))

def rowLimitOf (config : Config) (profile : Option Profile) (option : Option Nat) : Nat :=
  ((option.or (profile.bind Profile.rowLimit)).or config.rowLimit).getD defaultRowLimit

/-- The JSON of a result, or its text. -/
def present (format : OutputFormat) (value : Json) (text : String) : String :=
  match format with
  | .json => Report.line value.pretty
  | .text => text

def pageText (page : Page) : String :=
  Report.list ("Rows (" ++ String.ofList (Json.decimalChars page.rows.length) ++ ")")
    (page.rows.map fun row => row.toJson.compact) ++
  match page.nextCursor with
  | some cursor => Report.note ("next cursor: " ++ cursor.compact)
  | none => Report.note "last page"

def pageJson (page : Page) : Json :=
  .object [("nextCursor", page.nextCursor.getD .null),
    ("rows", .array (page.rows.map RowCells.toJson))]

def perform (readFile : ReadFile m) (config : Config) (profile : Option Profile)
    (format : OutputFormat) : Request → Run m String
  | .initState view empty => do
    let view ← loadView readFile profile view
    let states := FormStates.start (if empty then .empty else .declared) view.schema
    let saved ← ofView (states.save view.schema)
    return present format saved (Report.members "Filter state" saved)
  | .conditions view state => do
    let view ← loadView readFile profile view
    let states ← loadStates readFile profile state view
    let condition ← ofView (states.condition view.schema)
    return present format condition.toJson (Report.block "Conditions" condition.toJson.pretty)
  | .query view => do
    let view ← loadView readFile profile view
    return present format (.single "query" (.string view.query)) (Report.block "Query" view.query)
  | .pageVariables view state rowLimit cursor => do
    let view ← loadView readFile profile view
    let states ← loadStates readFile profile state view
    let cursor ← cursor.mapM parseJson
    let values ← ofView (view.queryVariables states (rowLimitOf config profile rowLimit) cursor)
    return present format values.toJson (Report.members "Variables" values.toJson)
  | .merge view incoming state => do
    let view ← loadView readFile profile view
    let states ← loadStates readFile profile state view
    let merged := states.merge view.schema (← loadJson readFile incoming)
    let saved ← ofView (merged.save view.schema)
    return present format saved (Report.members "Merged state" saved)
  | .flatten view response rowLimit => do
    let view ← loadView readFile profile view
    let planner := Planner.new view (rowLimitOf config profile rowLimit)
    let page := planner.page (← loadJson readFile response)
    return present format (pageJson page) (pageText page)

def performInvocation (readFile : ReadFile m) (environment : Environment)
    (invocation : Invocation) : Run m String := do
  let config ← loadConfig readFile environment invocation.config
  match config.select invocation.profile with
  | .ok profile => perform readFile config profile invocation.format invocation.request
  | .error fault => throw (.config fault)

def run (readFile : ReadFile m) (environment : Environment) (arguments : List String) :
    m Outcome := do
  match parse arguments with
  | .ok invocation =>
    match ← (performInvocation readFile environment invocation).run with
    | .ok output => return .finished output
    | .error error => return .failed error
  | .error .version => return .finished (Report.line versionText)
  | .error .help => return .finished ""
  | .error .usage => return .refused

end

end GridQuery.Command
