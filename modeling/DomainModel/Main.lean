import DomainModel.CommandLine.Run

/-! # The program

Runs on the files of the disk, prints what the run leaves behind and ends with its status. -/

namespace DomainModel.CommandLine

/-- Why the disk refused to give a file. -/
def ReadError.ofSystem : IO.Error → ReadError
  | .noFileOrDirectory .. => .notFound
  | .inappropriateType _ 21 _ => .isDirectory
  | .inappropriateType _ 20 _ => .notADirectory
  | error => .other error.toString

/-- The directories around an absolute path, the innermost first. -/
def enclosing (path : String) : List String :=
  let steps := path.splitOn "/"
  ((List.range steps.length).map fun n => "/".intercalate (steps.take n)).reverse

/-- The files of the disk. -/
def disk : FileSystem IO where
  read path := do
    match ← (IO.FS.readFile path).toBaseIO with
    | .ok text => return .ok text
    | .error error => return .error (.ofSystem error)
  directories path := return enclosing (← IO.FS.realPath path).toString

end DomainModel.CommandLine

open DomainModel.CommandLine in
def main (arguments : List String) : IO UInt32 := do
  let outcome ← run disk arguments
  (← IO.getStdout).putStr outcome.output
  (← IO.getStderr).putStr outcome.errors
  return outcome.status
