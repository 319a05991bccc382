import ObjectStore.FileTree.Staging
import ObjectStore.Layout

/-!
# Refs

A ref is a small text file in the git directory. It holds an id, or it is symbolic and names another
ref: `ref: refs/heads/master`. Branches are the refs below `refs/heads/`, and `HEAD` names the
current one.

* `Refs.follow` follows symbolic refs to an id, reading no more than `Refs.readLimit` files.
* `Refs.setBranch` points a branch at an id, and `Refs.resolveBranch` reads it back.
* `Refs.readHead` is the current branch and `Refs.resolveHead` the commit it points at, if any.
* `Refs.branches` are the names of all branches, in order.
-/

namespace ObjectStore

/-! ## Ref files -/

/-- What a ref file holds. -/
inductive RefContent where
  | symbolic (target : String)
  | direct (id : ObjectId)
  deriving DecidableEq

/-- Read the content of a ref file, given without blanks at its ends. -/
def RefContent.ofText? (content : String) : Option RefContent :=
  match content.toList with
  | 'r' :: 'e' :: 'f' :: ':' :: ' ' :: c :: rest =>
    if '\n' ∈ c :: rest then none else some (symbolic (Text.trim (String.ofList (c :: rest))))
  | _ => (ObjectId.parse? content).map direct

/-- The refs of a repository: its git directory. -/
structure Refs where
  gitPath : Path
  deriving DecidableEq

namespace Refs

/-- Read a ref; none if there is no such file. -/
def read (t : FileTree) (name : String) (path : Path) : Except StoreError (Option RefContent) :=
  match t.readText path with
  | .error .notFound => .ok none
  | .error fault => .error (.io path fault)
  | .ok text =>
    match RefContent.ofText? (Text.trim text) with
    | some content => .ok (some content)
    | none => .error (.invalidRef name (.unrecognized (Text.trim text)))

/-- How many files are read to follow a ref. -/
def readLimit : Nat := 6

/-- Follow a ref to an id through at most so many files; none if a file on the way is missing. -/
def follow (refs : Refs) (t : FileTree) :
    Nat → String → Path → Except StoreError (Option ObjectId)
  | 0, name, _ => .error (.invalidRef name .tooManyLevels)
  | reads + 1, name, path => do
    match ← read t name path with
    | none => return none
    | some (.direct id) => return some id
    | some (.symbolic target) => refs.follow t reads target (refs.gitPath.join ⟨target⟩)

/-! ## Branches -/

/-- The directory of the branches. -/
def headsPath (refs : Refs) : Path := refs.gitPath.join ⟨Layout.headsFront⟩

/-- The file of a branch. -/
def branchPath (refs : Refs) (branch : BranchName) : Path := refs.headsPath.join ⟨branch.name⟩

/-- What the file of a branch holds when it points at an id. -/
def branchContent (id : ObjectId) : Bytes := Bytes.ofString (id.text ++ "\n")

/-- Point a branch at an id. The new content is staged in the git directory, where it is not taken
for a branch. -/
def setBranch (refs : Refs) (draw : UInt32) (branch : BranchName) (id : ObjectId) :
    Change StoreError Unit := do
  let path := refs.branchPath branch
  match path.parent? with
  | some directory => FileTree.needDirectory directory
  | none => pure ()
  FileTree.replaceFile draw refs.gitPath "tmp-ref" path (branchContent id)

/-- The id a branch points at. -/
def resolveBranch (refs : Refs) (t : FileTree) (branch : BranchName) :
    Except StoreError ObjectId := do
  match ← refs.follow t readLimit branch.name (refs.branchPath branch) with
  | some id => return id
  | none => .error (.refNotFound branch.name)

/-- The names of all branches, in order, as far as directories can be opened. Files whose path is no
branch name are skipped. -/
def listBranches (refs : Refs) (t : FileTree) : List BranchName :=
  match t.isPresent refs.headsPath, t.locate refs.headsPath with
  | true, .ok heads =>
    let names := (t.below heads).filterMap fun (loc, node) =>
      match node with
      | .file _ => BranchName.parse? (String.intercalate "/" loc)
      | .directory => none
    names.mergeSort BranchName.le
  | _, _ => []

/-- The first directory below that of the branches whose path is too long for it to be opened. -/
def unopened? (refs : Refs) (t : FileTree) : Option Path :=
  match t.isPresent refs.headsPath, t.locate refs.headsPath with
  | true, .ok heads =>
    let directories := (t.listing heads).filterMap fun (loc, node) =>
      match node with
      | .directory => some (refs.headsPath.join ⟨String.intercalate "/" loc⟩)
      | .file _ => none
    directories.find? fun directory => FileTree.pathLimit ≤ directory.text.utf8ByteSize
  | _, _ => none

/-- The names of all branches, in order, if every directory they may be in can be opened. -/
def branches (refs : Refs) (t : FileTree) : Except StoreError (List BranchName) :=
  match refs.unopened? t with
  | some directory => .error (.io directory (.unopened directory))
  | none => .ok (refs.listBranches t)

/-! ## The current branch -/

/-- The file that names the current branch. -/
def headPath (refs : Refs) : Path := refs.gitPath.join ⟨Layout.headFile⟩

/-- The current branch. -/
def readHead (refs : Refs) (t : FileTree) : Except StoreError BranchName := do
  match ← read t Layout.headFile refs.headPath with
  | some (.symbolic target) => BranchName.ofSymbolic Layout.headsFront target
  | some (.direct id) => .error (.invalidRef Layout.headFile (.detached id))
  | none => .error (.refNotFound Layout.headFile)

/-- The commit of the current branch; none as long as it has no commits. -/
def resolveHead (refs : Refs) (t : FileTree) : Except StoreError (Option ObjectId) :=
  if t.isPresent refs.headPath then refs.follow t readLimit Layout.headFile refs.headPath
  else .error (.refNotFound Layout.headFile)

end Refs

end ObjectStore
