import GridQuery.Json.Printer
import GridQuery.Text.Blank

/-!
Text output: a heading, and under it aligned entries, a list or a block of text.
-/

namespace GridQuery.Command.Report

def line (text : String) : String :=
  text ++ "\n"

def heading (title : String) : String :=
  line ("▸ " ++ title)

def noEntries : String :=
  line "  (none)"

/-- Pads on the left up to a number of characters. -/
def alignRight (width : Nat) (text : String) : String :=
  String.ofList (List.replicate (width - text.length) ' ') ++ text

/-- Keys are aligned to the longest one, whose length is counted in bytes. -/
def entries (title : String) (rows : List (String × String)) : String :=
  let width := (rows.map fun row => row.1.utf8ByteSize).foldl max 0
  let body := rows.map fun row => line ("  " ++ alignRight width row.1 ++ ": " ++ row.2)
  heading title ++ if rows.isEmpty then noEntries else String.join body

def list (title : String) (items : List String) : String :=
  heading title ++
    if items.isEmpty then noEntries else String.join (items.map fun item => line ("  - " ++ item))

def block (title body : String) : String :=
  heading title ++ line (Text.trimEnd body)

def note (text : String) : String :=
  line ("ℹ " ++ text)

/-- The members of an object as entries. -/
def members (title : String) : Json → String
  | .object members => entries title (members.map fun entry => (entry.1, entry.2.compact))
  | value => block title value.pretty

end GridQuery.Command.Report
