/-!
# Directories — a tree of files that programs can cut short

A directory holds files and folders under relative paths.  Programs change it by steps
(`Files.Step`): making a folder, writing a file, moving a file.  A step is refused where something
is in its way, and then changes nothing.  Steps that are cut short (`Files.Step.begun`) leave
nothing behind, except that a write first empties the file and may stop at any byte; a move happens
as a whole or not at all.
-/

namespace TunnelKeeper.Files

/-- A relative path, outermost folder first. -/
abbrev Path := List String

namespace Path

/-- The path of a text with slashes between the names. -/
def ofText (s : String) : Path :=
  (s.splitOn "/").filter fun name => !name.isEmpty && name != "."

/-- The path as a text. -/
def text (path : Path) : String := String.intercalate "/" path

/-- Everything but the last name. -/
def parent (path : Path) : Path := path.dropLast

/-- The folders on the way to a path, outermost first, the path itself last. -/
def ways : Path → List Path
  | [] => []
  | name :: rest => [name] :: (ways rest).map (name :: ·)

/-- A name without what follows its last point; a point at the front does not count. -/
def stem (name : List Char) : List Char :=
  match (name.reverse.dropWhile (· != '.')).drop 1 with
  | [] => name
  | reversed => reversed.reverse

/-- The path whose last name ends in a point and another ending. -/
def withEnding (ending : String) (path : Path) : Path :=
  match path.getLast? with
  | none => path
  | some name => path.dropLast ++ [String.ofList (stem name.toList ++ '.' :: ending.toList)]

end Path

/-- What is at a path. -/
inductive Node where
  | file (content : List UInt8)
  | folder
deriving DecidableEq, Repr

/-- A directory: what is at which path. -/
structure Directory where
  nodes : List (Path × Node) := []
deriving DecidableEq, Repr

namespace Directory

def empty : Directory := {}

/-- What is at a path; the directory itself is a folder. -/
def node? (dir : Directory) (path : Path) : Option Node :=
  if path.isEmpty then some .folder else dir.nodes.lookup path

/-- Whether a folder is at a path. -/
def isFolder (dir : Directory) (path : Path) : Bool := dir.node? path == some .folder

/-- Puts a node at a path. -/
def put (dir : Directory) (path : Path) (node : Node) : Directory :=
  ⟨(path, node) :: dir.nodes.filter (·.1 != path)⟩

/-- Takes away what is at a path, and everything below it. -/
def remove (dir : Directory) (path : Path) : Directory :=
  ⟨dir.nodes.filter fun (p, _) => !path.isPrefixOf p⟩

/-- Why a file cannot be read. -/
inductive ReadError where
  /-- There is nothing. -/
  | missing
  /-- There is something else, or a file on the way. -/
  | refused
deriving DecidableEq, Repr

/-- Whether something that is no folder lies on the way to a path. -/
def isBlocked (dir : Directory) (path : Path) : Bool :=
  (Path.ways path.parent).any fun way =>
    match dir.node? way with
    | some (.file _) => true
    | _ => false

/-- The content of a file. -/
def read (dir : Directory) (path : Path) : Except ReadError (List UInt8) :=
  match dir.node? path with
  | some (.file content) => .ok content
  | some .folder => .error .refused
  | none => if dir.isBlocked path then .error .refused else .error .missing

/-- What the directory holds, as texts; folders end in a slash. -/
def listing (dir : Directory) : List String :=
  let shown := dir.nodes.map fun (path, node) =>
    match node with
    | .file _ => Path.text path
    | .folder => Path.text path ++ "/"
  shown.mergeSort fun a b => !(b < a)

end Directory

/-- A change of a directory. -/
inductive Step where
  /-- Makes a folder that is not there yet. -/
  | folder (path : Path)
  /-- Replaces the content of a file. -/
  | write (path : Path) (content : List UInt8)
  /-- Moves a file to another path, replacing the file there. -/
  | move (source target : Path)
deriving DecidableEq, Repr

namespace Step

/-- The directory after a step; none where it is refused. -/
def after? (dir : Directory) : Step → Option Directory
  | folder path =>
    match dir.node? path with
    | some .folder => some dir
    | some (.file _) => none
    | none => if dir.isFolder path.parent then some (dir.put path .folder) else none
  | write path content =>
    if dir.isFolder path.parent && !dir.isFolder path then some (dir.put path (.file content))
    else none
  | move source target =>
    match dir.node? source with
    | some (.file content) =>
      if source == target then some dir
      else if dir.isFolder target.parent && !dir.isFolder target then
        some ((dir.remove source).put target (.file content))
      else none
    | _ => none

/-- The directory after a step that stops early: a write that has emptied its file has written so
many bytes. -/
def begun (dir : Directory) (written : Option Nat) : Step → Directory
  | write path content =>
    match written with
    | some n => (after? dir (write path (content.take n))).getD dir
    | none => dir
  | _ => dir

end Step

/-- Where a list of steps is cut short: so many steps are done, and of the next one, if it is a
write that has begun, so many bytes. -/
structure Cut where
  done : Nat
  written : Option Nat
deriving DecidableEq, Repr

/-- The directory after steps carried out one after the other, up to the first that is refused or
cut short, and whether all of them were carried out. -/
def runSteps : (cut : Option Cut) → List Step → Directory → Directory × Bool
  | _, [], dir => (dir, true)
  | some ⟨0, written⟩, step :: _, dir => (step.begun dir written, false)
  | some ⟨done + 1, written⟩, step :: rest, dir =>
    match step.after? dir with
    | some dir => runSteps (some ⟨done, written⟩) rest dir
    | none => (dir, false)
  | none, step :: rest, dir =>
    match step.after? dir with
    | some dir => runSteps none rest dir
    | none => (dir, false)

/-- The steps that make all folders of a path. -/
def folderSteps (path : Path) : List Step := (Path.ways path).map .folder

namespace Directory

/-- The directory with all folders of a path, as far as they can be made. -/
def addFolders (dir : Directory) (path : Path) : Directory :=
  (runSteps none (folderSteps path) dir).1

/-- The directory with a file, if it can be written. -/
def addFile (dir : Directory) (path : Path) (content : List UInt8) : Directory :=
  (runSteps none [.write path content] dir).1

end Directory

example : Path.withEnding "tmp" ["a", ".hidden"] = ["a", ".hidden.tmp"] := by decide

end TunnelKeeper.Files
