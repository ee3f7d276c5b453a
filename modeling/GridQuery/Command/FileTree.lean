import GridQuery.Error

/-!
A directory of files held in memory. Directories are those that the names of the files pass
through.
-/

namespace GridQuery.Command

/-- The files by the segments of their paths. -/
abbrev FileTree := List (List String × String)

namespace FileTree

def splitSlashes : List Char → List Char × List (List Char)
  | [] => ([], [])
  | c :: text =>
    let (segment, others) := splitSlashes text
    if c = '/' then ([], segment :: others) else (c :: segment, others)

def segments (path : String) : List String :=
  let (first, rest) := splitSlashes path.toList
  (first :: rest).map String.ofList

def file? (tree : FileTree) (place : List String) : Option String :=
  (tree.find? fun entry => entry.1 = place).map Prod.snd

def isDirectory (tree : FileTree) (place : List String) : Bool :=
  place.isEmpty || tree.any fun entry => place.isPrefixOf entry.1 && place ≠ entry.1

/-- Follows a path from a directory. Every segment but the last must lead to a directory. Outside
the tree (`none`) there are directories, but nothing in them has a known name. -/
def walk (tree : FileTree) (place : Option (List String)) :
    List String → Except FileFault (Option (List String))
  | [] => .ok place
  | segment :: rest =>
    match place with
    | none =>
      if segment = "" ∨ segment = "." ∨ segment = ".." then walk tree none rest
      else .error .missing
    | some place =>
      if tree.isDirectory place then
        if segment = "" ∨ segment = "." then walk tree (some place) rest
        else if segment = ".." then
          walk tree (if place.isEmpty then none else some place.dropLast) rest
        else walk tree (some (place ++ [segment])) rest
      else if (tree.file? place).isSome then .error .notDirectory
      else .error .missing

def read (tree : FileTree) (path : String) : Except FileFault String :=
  if path.isEmpty then .error .missing
  else do
    match ← tree.walk (if path.startsWith "/" then none else some []) (segments path) with
    | none => throw .directory
    | some place =>
      match tree.file? place with
      | some text => return text
      | none => throw (if tree.isDirectory place then .directory else .missing)

end FileTree

end GridQuery.Command
