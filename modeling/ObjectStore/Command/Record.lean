import ObjectStore.Command.Outcome
import ObjectStore.Environment
import ObjectStore.Revision
import ObjectStore.Tree.Listing

/-!
# Commands that write something

`create`, `hashObject`, `makeTree`, `commitTree` and `updateRef` change a repository. All of them
print what they made after they made it. Each is given the number that is drawn for its staged file.
-/

namespace ObjectStore.Command

variable (repo : Repository) (draw : UInt32)

/-- Make the repository. -/
def create : Command := ofChange do
  (repo.create draw).mapError (.creation repo.root)
  let path ← Change.look fun t => .ok ((t.realPath? repo.gitPath).getD repo.gitPath)
  return outputLine ("Initialized empty Git repository in " ++ path.text)

/-- Print the id that a file has as an object of the given kind, and store that object if `write`
is set. A relative path is taken from the current directory. -/
def hashObject (current : Location) (file : Path) (kind : String) (write : Bool) : Command :=
  ofChange do
    let payload ← Change.look fun t => (t.readFileFrom current file).mapError (.unreadable file)
    let id ←
      if write then (repo.database.storeRaw draw kind payload).mapError .store
      else Change.look fun _ => (Canonical.hash kind payload).mapError .store
    return outputLine id.text

/-- Store the tree that a listing describes, and print its id. -/
def makeTree (listing : Bytes) : Command := ofChange do
  let entries ← Change.look fun _ => Tree.entriesOfListing listing
  let id ← (repo.buildTree draw entries).mapError .store
  return outputLine id.text

/-- Store a commit of the given revisions, and print its id. -/
def commitTree (env : Environment) (tree : String) (parents : List String) (message : String) :
    Command := ofChange do
  let commit ← Change.look fun t => do
    let tree ← repo.resolve t tree
    let parents ← parents.mapM (repo.resolve t)
    let author ← env.signature .author
    let committer ← env.committer
    return ⟨tree, parents, author, committer, message⟩
  let id ← (repo.buildCommit draw commit).mapError .store
  return outputLine id.text

/-- Point a branch at a revision. -/
def updateRef (branch revision : String) : Command := ofChange do
  let id ← Change.look fun t => repo.resolve t revision
  (repo.setBranch draw (Revision.withoutFront branch) id).mapError .store
  return []

end ObjectStore.Command
