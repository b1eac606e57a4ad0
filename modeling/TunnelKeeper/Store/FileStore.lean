import TunnelKeeper.Files.Directory
import TunnelKeeper.Store.Persisted
import TunnelKeeper.Text.Utf8

/-!
# File stores — persisted state in a file that is replaced whole

A file store answers from memory and writes every update through to its file: the folders of the
path are made, the text goes into a file beside it, and that file is moved into place.  The memory
changes only once all of this has worked.
-/

namespace TunnelKeeper.Store

open Files (Directory Path Step Cut)

/-- A store and the path of its file. -/
structure FileStore where
  path : Path
  state : Persisted
deriving Repr

namespace FileStore

/-- Opens the store at a path.  A file that is not there counts as an empty one, and so does a text
that describes no state. -/
def open? (dir : Directory) (path : Path) : Except StoreError FileStore :=
  match dir.read path with
  | .ok content =>
    match Utf8.text? content with
    | some text => .ok ⟨path, Persisted.ofText text⟩
    | none => .error .io
  | .error .missing => .ok ⟨path, {}⟩
  | .error .refused => .error .io

/-- The file that a text goes into at first. -/
def draftPath (store : FileStore) : Path := store.path.withEnding "tmp"

/-- The steps that write a state to the file. -/
def writeSteps (store : FileStore) (state : Persisted) : List Step :=
  Files.folderSteps store.path.parent ++
    [.write store.draftPath (Utf8.ofText state.text), .move store.draftPath store.path]

/-- Updates the store; `cut` says where the steps are cut short, if they are. -/
def update (store : FileStore) (change : Update) (cut : Option Cut) (dir : Directory) :
    Directory × Except StoreError FileStore :=
  let next := store.state.apply change
  let (dir, done) := Files.runSteps cut (store.writeSteps next) dir
  (dir, if done then .ok { store with state := next } else .error .io)

end FileStore

end TunnelKeeper.Store
