import ObjectStore.Proofs.BranchName
import ObjectStore.Proofs.FileTree.Walk
import ObjectStore.Proofs.ObjectId
import ObjectStore.Repository

/-!
# The places of a repository

Where the paths of a repository lead, when its root is a directory and its git directory is `.git`.

* `Repository.IsAt repo r t`: the root of the repository is the directory at `r`.
* `objectPath_extends`, `branchPath_extends` and their companions: every path of the repository
  continues its root by names that step down.
* `objectPlace`, `branchPlace`, `headPlace`: where these paths lead, if they lead anywhere. No two
  objects share a place (`objectPlace_injective`), and no object shares one with a ref.
-/

namespace ObjectStore

/-! ## The paths of a database -/

namespace Database

variable {db : Database} (id : ObjectId)

/-- An object's file lies in its directory. -/
theorem objectPath_eq : db.objectPath id = (db.fanPath id).join ⟨id.fanOut.2⟩ := by
  have hlast : id.fanOut.1.toList.getLast? ≠ some '/' := fun hslash =>
    id.isName_fan.2.1 (List.mem_of_mem_getLast? hslash)
  have hseparator : (⟨id.fanOut.1⟩ : Path).separator = "/" := by
    simp [Path.separator, id.fan_ne_empty, hlast]
  rw [fanPath, Path.join_join id.isName_fan.isAbsolute_eq id.fan_ne_empty
    id.isName_file.isAbsolute_eq, hseparator]
  rfl

/-- A directory of object files lies in the directory of objects. -/
theorem fanPath_extends (h : db.objects.text ≠ "") :
    (db.fanPath id).Extends db.objects [id.fanOut.1] :=
  Path.extends_join_name h id.isName_fan

/-- The file of an object lies two names below the directory of objects. -/
theorem objectPath_extends (h : db.objects.text ≠ "") :
    (db.objectPath id).Extends db.objects [id.fanOut.1, id.fanOut.2] := by
  rw [objectPath_eq]
  exact (fanPath_extends id h).join _ id.isName_file

/-- The last two steps to an object's file are the two parts of its id. -/
theorem names_objectPath (db : Database) :
    ∃ front, (db.objectPath id).names = front ++ [id.fanOut.1, id.fanOut.2] := by
  by_cases hroot : db.objects.text = ""
  · have hfan : db.fanPath id = ⟨id.fanOut.1⟩ := by
      rw [fanPath, Path.join_eq id.isName_fan.isAbsolute_eq, Path.separator, hroot]
      simp
    refine ⟨[], ?_⟩
    rw [objectPath_eq, (Path.extends_join_name (by rw [hfan]; exact id.fan_ne_empty)
      id.isName_file).names_eq, hfan, Path.pieces_of_isName id.isName_fan]
    rfl
  · exact ⟨_, (objectPath_extends id hroot).names_eq⟩

end Database

/-! ## The paths of branches -/

namespace Refs

variable {refs : Refs} (branch : BranchName)

/-- The path of a branch is its ref, taken from the git directory. -/
theorem branchPath_eq :
    refs.branchPath branch = refs.gitPath.join ⟨Layout.headsFront ++ branch.name⟩ :=
  Path.join_join rfl (by decide) branch.isAbsolute_name

/-- The path of a branch `a/b` with more slashes is as long as one wants. -/
theorem lt_utf8ByteSize_branchPath_spread (refs : Refs) (n : Nat) :
    n < (refs.branchPath (BranchName.spread n)).text.utf8ByteSize := by
  rw [branchPath, Path.join_eq (BranchName.spread n).isAbsolute_name, String.utf8ByteSize_append]
  exact Nat.lt_add_left _ (BranchName.lt_utf8ByteSize_spreadName n)

/-- The path of a branch goes straight down from the git directory. -/
theorem branchPath_extends (h : refs.gitPath.text ≠ "") :
    (refs.branchPath branch).Extends refs.gitPath (["refs", "heads"] ++ branch.components) := by
  rw [branchPath_eq]
  exact branch.extends_join_ref h

end Refs

/-! ## The paths of a repository -/

namespace Repository

variable {repo : Repository} {r : Location} {t t' : FileTree}

/-- The repository's root is the directory at `r`, and its git directory has its usual name. -/
structure IsAt (repo : Repository) (r : Location) (t : FileTree) : Prop where
  gitDirectory : repo.layout.gitDirectory = ⟨".git"⟩
  root : t.locate repo.root = .ok r
  directory : t.lookup r = some .directory

namespace IsAt

/-- The path of the root is not empty. -/
theorem root_text_ne (h : repo.IsAt r t) : repo.root.text ≠ "" :=
  (FileTree.locate_eq_ok_iff.mp h.root).2.1

/-- The root stays where it is as long as no directory goes away. -/
theorem mono (h : repo.IsAt r t)
    (hdirs : ∀ l, t.lookup l = some .directory → t'.lookup l = some .directory) :
    repo.IsAt r t' :=
  ⟨h.gitDirectory, FileTree.locate_of_directories hdirs h.root, hdirs r h.directory⟩

variable (h : repo.IsAt r t)

include h

/-- The git directory is in the root. -/
theorem gitPath_extends : repo.gitPath.Extends repo.root [".git"] := by
  rw [gitPath, Layout.gitPath, h.gitDirectory]
  exact Path.extends_join_name h.root_text_ne (by decide)

/-- The directory of objects is in the git directory. -/
theorem objects_extends : repo.database.objects.Extends repo.root [".git", "objects"] :=
  h.gitPath_extends.join "objects" (by decide)

/-- A directory of object files is in the directory of objects. -/
theorem fanPath_extends (id : ObjectId) :
    (repo.database.fanPath id).Extends repo.root [".git", "objects", id.fanOut.1] :=
  h.objects_extends.trans (Database.fanPath_extends id h.objects_extends.text_ne)

/-- An object's file is in one of these. -/
theorem objectPath_extends (id : ObjectId) :
    (repo.database.objectPath id).Extends repo.root
      [".git", "objects", id.fanOut.1, id.fanOut.2] :=
  h.objects_extends.trans (Database.objectPath_extends id h.objects_extends.text_ne)

/-- The directory of the branches is two names below the git directory. -/
theorem headsPath_extends :
    (repo.layout.headsPath repo.root).Extends repo.root [".git", "refs", "heads"] :=
  (h.gitPath_extends.join "refs" (by decide)).join "heads" (by decide)

/-- `HEAD` is in the git directory. -/
theorem headPath_extends : repo.headPath.Extends repo.root [".git", "HEAD"] :=
  h.gitPath_extends.join "HEAD" (by decide)

/-- A branch is below the directory of the branches, in as many names as it has components. -/
theorem branchPath_extends (branch : BranchName) :
    (repo.refs.branchPath branch).Extends repo.root
      ([".git", "refs", "heads"] ++ branch.components) :=
  h.gitPath_extends.trans (Refs.branchPath_extends branch h.gitPath_extends.text_ne)

end IsAt

/-! ## Where they lead -/

/-- Where the file of an object is kept. -/
def objectPlace (r : Location) (id : ObjectId) : Location :=
  r ++ [".git", "objects", id.fanOut.1, id.fanOut.2]

/-- Where the file of a branch is kept. -/
def branchPlace (r : Location) (branch : BranchName) : Location :=
  r ++ ([".git", "refs", "heads"] ++ branch.components)

/-- Where the file that names the current branch is kept. -/
def headPlace (r : Location) : Location := r ++ [".git", "HEAD"]

/-- No two objects share a place. -/
theorem objectPlace_injective {a b : ObjectId} (h : objectPlace r a = objectPlace r b) : a = b := by
  have := List.append_cancel_left h
  simp only [List.cons.injEq, true_and, and_true] at this
  exact ObjectId.fanOut_injective (Prod.ext this.1 this.2)

/-- No branch is kept where an object is. -/
theorem objectPlace_ne_branchPlace (id : ObjectId) (branch : BranchName) :
    objectPlace r id ≠ branchPlace r branch := by
  intro h
  have := List.append_cancel_left h
  simp at this

/-- `HEAD` is not kept where an object is. -/
theorem objectPlace_ne_headPlace (id : ObjectId) : objectPlace r id ≠ headPlace r := by
  intro h
  have := List.append_cancel_left h
  simp at this

/-- No branch is kept where `HEAD` is. -/
theorem branchPlace_ne_headPlace {branch : BranchName} : branchPlace r branch ≠ headPlace r := by
  intro h
  have := List.append_cancel_left h
  simp at this

namespace IsAt

variable {l : Location} (h : repo.IsAt r t)

include h

/-- If the path of an object leads anywhere, it leads to the place of the object. -/
theorem eq_of_locate_objectPath {id : ObjectId}
    (hl : t.locate (repo.database.objectPath id) = .ok l) : l = objectPlace r id :=
  ((FileTree.locate_extends_eq_ok_iff h.root (h.objectPath_extends id)).mp hl).2.1

/-- If the path of a branch leads anywhere, it leads to the place of the branch. -/
theorem eq_of_locate_branchPath {branch : BranchName}
    (hl : t.locate (repo.refs.branchPath branch) = .ok l) : l = branchPlace r branch :=
  ((FileTree.locate_extends_eq_ok_iff h.root (h.branchPath_extends branch)).mp hl).2.1

/-- If the path of `HEAD` leads anywhere, it leads to the place of `HEAD`. -/
theorem eq_of_locate_headPath (hl : t.locate repo.headPath = .ok l) : l = headPlace r :=
  ((FileTree.locate_extends_eq_ok_iff h.root h.headPath_extends).mp hl).2.1

end IsAt

end Repository

end ObjectStore
