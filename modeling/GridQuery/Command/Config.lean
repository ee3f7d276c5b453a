import GridQuery.Error
import GridQuery.Toml.Parser

/-!
The configuration of the command line: a default row limit and named profiles, each of which may
supply a view, a form state and a row limit of its own.
-/

namespace GridQuery.Command

structure Profile where
  view : Option String
  state : Option String
  rowLimit : Option Nat

structure Config where
  defaultProfile : Option String
  rowLimit : Option Nat
  profiles : List (String × Profile)

inductive ConfigFault where
  | unreadable (path : String) (fault : FileFault)
  | malformed (path : String)
  | profileNotFound (name : String)

def ConfigFault.text : ConfigFault → String
  | .unreadable path fault => "failed to read CLI config " ++ path ++ ": " ++ fault.text
  | .malformed path => "failed to parse CLI config " ++ path
  | .profileNotFound name => "profile '" ++ name ++ "' not found"

namespace Config

def empty : Config :=
  ⟨none, none, []⟩

/-- An optional text of a table; a value of another type is a fault. -/
def textEntry (name : String) (entries : Toml.Entries) : Option (Option String) :=
  match Named.find? name entries with
  | none => some none
  | some (.text value) => some (some value)
  | some _ => none

def naturalEntry (name : String) (entries : Toml.Entries) : Option (Option Nat) :=
  match Named.find? name entries with
  | none => some none
  | some (.integer (.ofNat value)) => some (some value)
  | some _ => none

def profileOf? : Toml.Node → Option Profile
  | .table _ entries => do
    let view ← textEntry "view" entries
    let state ← textEntry "state" entries
    let rowLimit ← naturalEntry "row_limit" entries
    return ⟨view, state, rowLimit⟩
  | _ => none

def profilesOf? (entries : Toml.Entries) : Option (List (String × Profile)) :=
  match Named.find? "profiles" entries with
  | none => some []
  | some (.table _ profiles) => profiles.mapM fun entry => do
    return (entry.1, ← profileOf? entry.2)
  | some _ => none

def ofEntries? (entries : Toml.Entries) : Option Config := do
  let defaultProfile ← textEntry "default_profile" entries
  let rowLimit ← naturalEntry "row_limit" entries
  let profiles ← profilesOf? entries
  return ⟨defaultProfile, rowLimit, profiles⟩

def profile (config : Config) (name : String) : Except ConfigFault Profile :=
  match Named.find? name config.profiles with
  | some profile => .ok profile
  | none => .error (.profileNotFound name)

/-- The default profile, if there is one; it must exist. -/
def defaultOf (config : Config) : Except ConfigFault (Option Profile) :=
  match config.defaultProfile with
  | some name => (config.profile name).map some
  | none => .ok none

def ofText (path text : String) : Except ConfigFault Config :=
  match (Toml.parse? text).bind ofEntries? with
  | some config => config.defaultOf.map fun _ => config
  | none => .error (.malformed path)

/-- The profile that was asked for, or else the default one. -/
def select (config : Config) : Option String → Except ConfigFault (Option Profile)
  | some name => (config.profile name).map some
  | none => config.defaultOf

end Config

end GridQuery.Command
