import ObjectStore.BranchName
import ObjectStore.Text.Blank

/-!
# Layout

Where the parts of a repository lie below its root, and which branch HEAD points at when the
repository is made:

    <root>/.git/objects/<2 digits>/<38 digits>
    <root>/.git/refs/heads/<branch>
    <root>/.git/HEAD
-/

namespace ObjectStore

/-- The branch HEAD points at unless another one is chosen. -/
def BranchName.master : BranchName := ⟨"master", by decide +kernel⟩

/-- The names of a repository's parts that may be chosen. -/
structure Layout where
  gitDirectory : Path := ⟨".git"⟩
  defaultBranch : BranchName := BranchName.master
  deriving DecidableEq

namespace Layout

/-- The layout unless another one is chosen. -/
def standard : Layout := {}

/-- The layout with another default branch. -/
def withDefaultBranch (layout : Layout) (branch : String) : Except StoreError Layout :=
  (BranchName.parse branch).map fun branch => { layout with defaultBranch := branch }

/-- The standard layout, with the default branch an environment variable may give. -/
def ofVariable (value : Option String) : Except StoreError Layout :=
  match value.map Text.trim with
  | some branch => if branch.isEmpty then .ok standard else standard.withDefaultBranch branch
  | none => .ok standard

variable (layout : Layout) (root : Path)

/-- The directory that holds everything else. -/
def gitPath : Path := root.join layout.gitDirectory

/-- The directory of the object files. -/
def objectsPath : Path := (layout.gitPath root).join ⟨"objects"⟩

/-- The directory of the refs. -/
def refsPath : Path := (layout.gitPath root).join ⟨"refs"⟩

/-- The directory of the branches. -/
def headsPath : Path := (layout.refsPath root).join ⟨"heads"⟩

/-- The name of the file that says which branch is current. -/
def headFile : String := "HEAD"

/-- The file that says which branch is current. -/
def headPath : Path := (layout.gitPath root).join ⟨headFile⟩

/-- The text that the refs of all branches start with. -/
def headsFront : String := "refs/heads/"

/-- The content of a symbolic ref to a branch. -/
def symbolic (branch : BranchName) : String := "ref: " ++ headsFront ++ branch.name

end Layout

end ObjectStore
