import DomainModel.CommandLine.FileSystem

/-! # File trees

A working directory held in memory. A path names a file or directory step by step: `.` and empty
steps stay, `..` goes back to the directory around, and any other step enters the entry of that
name. Nothing exists outside of the tree. -/

namespace DomainModel.CommandLine

inductive FileTree where
  | file (text : String)
  | directory (entries : List (String × FileTree))

namespace FileTree

def empty : FileTree := directory []

/-- The entry of a directory. -/
def entry? (name : String) : FileTree → Option FileTree
  | directory entries => (entries.find? (·.1 == name)).map (·.2)
  | file _ => none

/-- Put a tree at a path of names; directories on the way are made. -/
def insert (leaf : FileTree) : List String → FileTree → FileTree
  | [], _ => leaf
  | name :: names, tree =>
    let others := match tree with
      | directory entries => entries.filter (·.1 != name)
      | file _ => []
    directory (others ++ [(name, insert leaf names ((tree.entry? name).getD empty))])

/-- The steps of a path. -/
def steps (path : String) : List String := path.splitOn "/"

/-- The step stays where it is. -/
def isIdle (step : String) : Bool := step.isEmpty || step == "."

/-- The tree of files by their paths; a path without text is a directory. -/
def ofFiles (files : List (String × Option String)) : FileTree :=
  files.foldl (fun tree (path, text) =>
    insert (text.elim empty file) ((steps path).filter (!isIdle ·)) tree) empty

/-- A place in a tree: what is there, and the directories around it with the names that lead from
each to the next, the innermost first. -/
structure Place where
  here : FileTree
  around : List (String × FileTree)

/-- Take one step. -/
def Place.step (p : Place) (step : String) : Except ReadError Place :=
  match p.here with
  | file _ => .error .notADirectory
  | directory _ =>
    if isIdle step then .ok p
    else if step == ".." then
      match p.around with
      | (_, outer) :: around => .ok ⟨outer, around⟩
      | [] => .error .notFound
    else match p.here.entry? step with
      | some inner => .ok ⟨inner, (step, p.here) :: p.around⟩
      | none => .error .notFound

/-- The place of a path. -/
def find (tree : FileTree) (path : String) : Except ReadError Place :=
  if path.isEmpty || path.startsWith "/" then .error .notFound
  else (steps path).foldlM Place.step ⟨tree, []⟩

/-- The text of the file at a path. -/
def read (tree : FileTree) (path : String) : Except ReadError String := do
  match (← tree.find path).here with
  | file text => return text
  | directory _ => .error .isDirectory

/-- The path that leads through names from the working directory. -/
def pathOf (names : List String) : String := "/".intercalate ("." :: names)

/-- The paths of the directories that are reached by some of the first names, the longest first. -/
def directoriesAlong (names : List String) : List String :=
  ((List.range (names.length + 1)).map fun n => pathOf (names.take n)).reverse

/-- The directories around the file at a path. -/
def directories (tree : FileTree) (path : String) : List String :=
  match tree.find path with
  | .ok place => directoriesAlong ((place.around.map (·.1)).drop 1).reverse
  | .error _ => []

/-- The files of the tree. -/
def fileSystem (tree : FileTree) : FileSystem Id := ⟨tree.read, tree.directories⟩

end FileTree

end DomainModel.CommandLine
