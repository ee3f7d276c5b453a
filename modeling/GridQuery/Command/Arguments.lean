import GridQuery.Json.Token

/-!
The arguments of the command line. Options may stand before the command or after it, with their
value in the next argument or after an equals sign; two dashes end the options.
-/

namespace GridQuery.Command

inductive OutputFormat where
  | text
  | json
deriving DecidableEq

/-- The operands of each command; a path that is not given comes from the profile. -/
inductive Request where
  | initState (view : Option String) (empty : Bool)
  | conditions (view state : Option String)
  | query (view : Option String)
  | pageVariables (view state : Option String) (rowLimit : Option Nat) (cursor : Option String)
  | merge (view : Option String) (incoming : String) (state : Option String)
  | flatten (view : Option String) (response : String) (rowLimit : Option Nat)

structure Invocation where
  format : OutputFormat
  config : Option String
  profile : Option String
  request : Request

/-- Why the arguments are no request: they are wrong, or ask about the program itself. -/
inductive Ending where
  | usage
  | help
  | version
deriving DecidableEq

/-- What an option takes: nothing, nothing but it may be repeated, a value that passes a test, or
the end of the run. -/
inductive OptionKind where
  | switch
  | counter
  | value (accepts : String → Bool)
  | ending (ending : Ending)

structure OptionSpec where
  long : String
  short : Option Char
  kind : OptionKind

/-- The arguments understood before the command, or after it. -/
structure Level where
  options : List OptionSpec
  commands : List String
  takesPath : Bool

/-- The arguments so far. `pending` is an option that waits for its value. -/
structure Scan where
  values : List (String × String)
  pending : Option OptionSpec
  path : Option String
  optionsEnded : Bool

def Scan.start : Scan :=
  ⟨[], none, none, false⟩

def Scan.value? (scan : Scan) (name : String) : Option String :=
  (scan.values.find? fun entry => entry.1 = name).map Prod.snd

def isPathText (text : String) : Bool :=
  !text.isEmpty

/-- A number of 64 bits; one plus sign and leading zeros are allowed. -/
def natural64? (text : String) : Option Nat :=
  let digits :=
    match text.toList with
    | '+' :: digits => digits
    | digits => digits
  let value := Json.digitsValue digits
  if !digits.isEmpty && digits.all Char.isDigit && value < Nat.pow 2 64 then some value else none

def oneOf (texts : List String) : OptionKind :=
  .value fun text => texts.contains text

def pathOption (long : String) : OptionSpec :=
  ⟨long, none, .value isPathText⟩

def rowLimitOption : OptionSpec :=
  ⟨"row-limit", none, .value fun text => (natural64? text).isSome⟩

def globalOptions : List OptionSpec :=
  [⟨"format", none, oneOf ["text", "json"]⟩, pathOption "config",
    ⟨"profile", none, .value fun _ => true⟩, ⟨"verbose", some 'v', .counter⟩,
    ⟨"theme", none, oneOf ["auto", "light", "dark", "plain"]⟩, ⟨"help", some 'h', .ending .help⟩]

def commandOptions : List (String × List OptionSpec) :=
  [("init-state", [⟨"empty", none, .switch⟩]),
    ("conditions", [pathOption "state"]),
    ("query", []),
    ("variables", [pathOption "state", rowLimitOption, ⟨"cursor", none, .value fun _ => true⟩]),
    ("merge", [pathOption "incoming", pathOption "state"]),
    ("flatten", [pathOption "response", rowLimitOption])]

def programLevel : Level :=
  ⟨⟨"version", some 'V', .ending .version⟩ :: globalOptions, commandOptions.map Prod.fst, false⟩

def commandLevel (options : List OptionSpec) : Level :=
  ⟨options ++ globalOptions, [], true⟩

namespace Scan

def addValue (option : OptionSpec) (text : String) (scan : Scan) : Except Ending Scan :=
  match option.kind with
  | .value accepts =>
    if accepts text ∧ (scan.value? option.long).isNone then
      .ok { scan with values := scan.values ++ [(option.long, text)], pending := none }
    else .error .usage
  | _ => .error .usage

/-- An option without a value. -/
def addFlag (option : OptionSpec) (scan : Scan) : Except Ending Scan :=
  match option.kind with
  | .switch =>
    if (scan.value? option.long).isNone then
      .ok { scan with values := scan.values ++ [(option.long, "")] }
    else .error .usage
  | .counter => .ok scan
  | .value _ => .ok { scan with pending := some option }
  | .ending ending => .error ending

/-- The part before the first equals sign, and the part after it. -/
def splitEquals (text : List Char) : List Char × Option (List Char) :=
  match text.dropWhile (· ≠ '=') with
  | [] => (text, none)
  | _ :: value => (text.takeWhile (· ≠ '='), some value)

def long (level : Level) (text : List Char) (scan : Scan) : Except Ending Scan :=
  let (name, value) := splitEquals text
  match level.options.find? fun option => option.long.toList = name, value with
  | some option, some value => scan.addValue option (String.ofList value)
  | some option, none => scan.addFlag option
  | none, _ => .error .usage

/-- A cluster of one-letter options, none of which takes a value. -/
def short (level : Level) (scan : Scan) : List Char → Except Ending Scan
  | [] => .ok scan
  | letter :: rest =>
    match level.options.find? fun option => option.short = some letter with
    | some option => do short level (← scan.addFlag option) rest
    | none => .error .usage

def positional (level : Level) (argument : String) (scan : Scan) : Except Ending Scan :=
  if level.takesPath ∧ scan.path.isNone ∧ isPathText argument then
    .ok { scan with path := some argument }
  else .error .usage

/-- An option that waits for its value does not get it from another option. -/
def settled (scan : Scan) : Except Ending Scan :=
  if scan.pending.isSome then .error .usage else .ok scan

def step (level : Level) (argument : String) (scan : Scan) : Except Ending Scan :=
  if scan.optionsEnded then do (← scan.settled).positional level argument
  else
    match argument.toList, scan.pending with
    | ['-', '-'], _ => .ok { scan with optionsEnded := true }
    | '-' :: '-' :: text, _ => do (← scan.settled).long level text
    | '-' :: letter :: rest, _ => do (← scan.settled).short level (letter :: rest)
    | _, some option => scan.addValue option argument
    | _, none => scan.positional level argument

def entersCommand (level : Level) (argument : String) (scan : Scan) : Bool :=
  !scan.optionsEnded && scan.pending.isNone && level.commands.contains argument

/-- Reads arguments up to a command. -/
def run (level : Level) (scan : Scan) :
    List String → Except Ending (Scan × Option (String × List String))
  | [] => do return (← scan.settled, none)
  | argument :: rest =>
    if scan.entersCommand level argument then .ok (scan, some (argument, rest))
    else do run level (← scan.step level argument) rest

def natural? (scan : Scan) (name : String) : Option Nat :=
  (scan.value? name).bind natural64?

end Scan

def required (value : Option String) : Except Ending String :=
  match value with
  | some value => .ok value
  | none => .error .usage

def requestOf (command : String) (scan : Scan) : Except Ending Request := do
  let view := scan.path
  let state := scan.value? "state"
  match command with
  | "init-state" => return .initState view (scan.value? "empty").isSome
  | "conditions" => return .conditions view state
  | "query" => return .query view
  | "variables" =>
    return .pageVariables view state (scan.natural? "row-limit") (scan.value? "cursor")
  | "merge" => return .merge view (← required (scan.value? "incoming")) state
  | "flatten" =>
    return .flatten view (← required (scan.value? "response")) (scan.natural? "row-limit")
  | _ => throw .usage

/-- Options given after the command win over those before it. -/
def parse (arguments : List String) : Except Ending Invocation := do
  let (before, command) ← Scan.start.run programLevel arguments
  match command with
  | none => throw .usage
  | some (command, rest) =>
    let options := (Named.find? command commandOptions).getD []
    let (after, _) ← Scan.start.run (commandLevel options) rest
    let request ← requestOf command after
    let chosen (name : String) : Option String := (after.value? name).or (before.value? name)
    let format := if chosen "format" = some "json" then OutputFormat.json else .text
    return ⟨format, chosen "config", chosen "profile", request⟩

end GridQuery.Command
