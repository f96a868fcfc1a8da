/-! # File systems

What a run needs of a file system: reading a file, and the directories around one. The run is the
same on a disk and on a tree in memory. -/

namespace DomainModel.CommandLine

/-- Why a file cannot be read. -/
inductive ReadError where
  | notFound
  | isDirectory
  | notADirectory
  | other (reason : String)
deriving DecidableEq

namespace ReadError

def message : ReadError → String
  | notFound => "No such file or directory (os error 2)"
  | isDirectory => "Is a directory (os error 21)"
  | notADirectory => "Not a directory (os error 20)"
  | other reason => reason

/-- There is no file at the path. -/
def isAbsence : ReadError → Bool
  | notFound | isDirectory | notADirectory => true
  | other _ => false

end ReadError

/-- Access to files. -/
structure FileSystem (m : Type → Type) where
  read : (path : String) → m (Except ReadError String)
  /-- The paths of the directories around a file, the innermost first. -/
  directories : (path : String) → m (List String)

end DomainModel.CommandLine
