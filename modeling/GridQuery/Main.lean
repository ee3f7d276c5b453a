import GridQuery.Command.Session

/-!
The command line: files are read from disk, output goes to standard output and errors to standard
error.
-/

namespace GridQuery.Command

def faultOfCode (code : UInt32) : FileFault :=
  if code = 21 then .directory
  else if code = 20 then .notDirectory
  else if code = 2 then .missing
  else .undecodable

def faultOf : IO.Error → FileFault
  | .noFileOrDirectory _ code _ => faultOfCode code
  | .inappropriateType _ code _ => faultOfCode code
  | .illegalOperation code _ => faultOfCode code
  | .otherError code _ => faultOfCode code
  | _ => .undecodable

def readFromDisk (path : String) : IO (Except FileFault String) := do
  try
    return .ok (← IO.FS.readFile path)
  catch error =>
    return .error (faultOf error)

def environment : IO Environment := do
  let configVariable ← IO.getEnv "VIEWGRID_CONFIG"
  let base ← IO.getEnv "XDG_CONFIG_HOME"
  let home ← IO.getEnv "HOME"
  let directory := (base.filter fun path => path.startsWith "/").or (home.map (· ++ "/.config"))
  return ⟨configVariable, directory.map (· ++ "/viewgrid/cli.toml")⟩

end GridQuery.Command

open GridQuery.Command in
def main (arguments : List String) : IO UInt32 := do
  match ← run readFromDisk (← environment) arguments with
  | .finished output =>
    IO.print output
    return 0
  | .failed error =>
    IO.eprintln ("error: " ++ error.text)
    return 1
  | .refused =>
    IO.eprintln "error: the arguments are not understood"
    return 2
