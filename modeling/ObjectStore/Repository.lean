import ObjectStore.Database
import ObjectStore.History
import ObjectStore.Refs

/-!
# Repositories

A repository is a root directory with a layout. Its database and its refs lie below the root, and
nothing of it has to exist before it is needed.

`Repository.create` makes the directories and HEAD. It never changes a HEAD that holds
something, so it may be run again at any time. What writes is given the number that is drawn for
its staged file.
-/

namespace ObjectStore

/-- A repository: where it is, and the names of its parts. -/
structure Repository where
  root : Path
  layout : Layout
  deriving DecidableEq

namespace Repository

/-- The directory that holds everything else. -/
def gitPath (repo : Repository) : Path := repo.layout.gitPath repo.root

/-- The objects of a repository. -/
def database (repo : Repository) : Database := ⟨repo.layout.objectsPath repo.root⟩

/-- The refs of a repository. -/
def refs (repo : Repository) : Refs := ⟨repo.gitPath⟩

/-- The file that names the current branch. -/
def headPath (repo : Repository) : Path := repo.layout.headPath repo.root

/-! ## Creating -/

/-- Let HEAD be the given staged file. An existing HEAD stays, unless it is an empty file, as an
interrupted writer may leave it. -/
def installHead (staged head : Path) : Change StoreError Unit := fun t =>
  match FileTree.link staged head t with
  | (.ok (), t) => (.ok (), FileTree.unlink staged t)
  | (.error .alreadyExists, t) =>
    if t.isEmptyFile head then FileTree.publish staged head t
    else (.ok (), FileTree.unlink staged t)
  | (.error fault, t) => (.error (.io head fault), FileTree.unlink staged t)

/-- Make the directories of a repository, and HEAD. -/
def create (repo : Repository) (draw : UInt32) : Change StoreError Unit := do
  FileTree.needDirectory (repo.layout.objectsPath repo.root)
  FileTree.needDirectory (repo.layout.headsPath repo.root)
  let content := Bytes.ofString (Layout.symbolic repo.layout.defaultBranch)
  installHead (← FileTree.stage draw repo.gitPath "tmp-head" content) repo.headPath

/-! ## Writing -/

/-- Store a blob; the result is its id. -/
def writeBlob (repo : Repository) (draw : UInt32) (content : Bytes) :
    Change StoreError ObjectId :=
  repo.database.store draw (.blob content)

/-- Store the tree of the given entries; the result is its id. Nothing is written for entries that
make no tree. -/
def buildTree (repo : Repository) (draw : UInt32) (entries : List TreeEntry) :
    Change StoreError ObjectId := do
  repo.database.store draw (.tree (← Change.look fun _ => Tree.build entries))

/-- Store a commit; the result is its id. The tree and the parents need not be there. -/
def buildCommit (repo : Repository) (draw : UInt32) (commit : Commit) :
    Change StoreError ObjectId :=
  repo.database.store draw (.commit commit)

/-- Point the branch of the given name at an id. -/
def setBranch (repo : Repository) (draw : UInt32) (name : String) (id : ObjectId) :
    Change StoreError Unit := do
  repo.refs.setBranch draw (← Change.look fun _ => BranchName.parse name) id

/-! ## Reading -/

/-- The id that the branch of the given name points at. -/
def resolveBranch (repo : Repository) (t : FileTree) (name : String) :
    Except StoreError ObjectId := do
  repo.refs.resolveBranch t (← BranchName.parse name)

/-- The next visits of a walk from the given id, at most `limit` of them. -/
def visits (repo : Repository) (t : FileTree) (mainline : Bool) (start : ObjectId) (limit : Nat) :
    List Visit :=
  (Walk.start mainline start).visits (repo.database.parseCommit t) limit

end Repository

end ObjectStore
