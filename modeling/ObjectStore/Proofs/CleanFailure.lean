import ObjectStore.Proofs.FileTree.Failure
import ObjectStore.Proofs.Refs.Failure

/-!
# Failing without a trace

An operation that writes a file does so in its last step. Every step before that looks at the tree,
makes directories or stages what will be written, so an operation that fails has changed no file.

* `Change.LeavesFiles`: a change that leaves every file as it is, whatever comes of it.
* `Change.FailsCleanly`: a change that does so if it fails.
* `LeavesFiles.bind_failsCleanly`: steps that write nothing, and then one that fails cleanly.
* `FailsCleanly.bind`: a step that fails cleanly, and then some that cannot fail.
* `Database.storeRaw_failsCleanly`, `Refs.setBranch_failsCleanly`, `Repository.create_failsCleanly`:
  the operations that write.

Directories are another matter: those that were made stay.
-/

namespace ObjectStore

namespace Change

variable {ε δ α β : Type} {x : Change ε α} {f : α → Change ε β}

/-- A change that leaves every file as it is, and adds none. -/
def LeavesFiles (x : Change ε α) : Prop := ∀ t : FileTree, t.SameFiles (x t).2

/-- A change that leaves every file as it is if it fails, and adds none then. -/
def FailsCleanly (x : Change ε α) : Prop :=
  ∀ (t : FileTree) (err : ε), (x t).1 = .error err → t.SameFiles (x t).2

/-! ## Steps that write nothing -/

/-- A result alone leaves the files. -/
theorem leavesFiles_pure (a : α) : (pure a : Change ε α).LeavesFiles := FileTree.SameFiles.refl

/-- Looking leaves the files. -/
theorem leavesFiles_look (g : FileTree → Except ε α) : (look g).LeavesFiles :=
  FileTree.SameFiles.refl

/-- Giving errors another type changes no file. -/
theorem LeavesFiles.mapError (h : x.LeavesFiles) (g : ε → δ) : (x.mapError g).LeavesFiles := h

/-- A change that leaves the files does so when it fails. -/
theorem LeavesFiles.failsCleanly (h : x.LeavesFiles) : x.FailsCleanly := fun t _ _ => h t

/-! ## Steps that fail cleanly -/

/-- What fails cleanly does so with errors of another type. -/
theorem FailsCleanly.mapError (h : x.FailsCleanly) (g : ε → δ) : (x.mapError g).FailsCleanly := by
  intro t err herr
  show t.SameFiles (x t).2
  cases hx : (x t).1 with
  | error fault => exact h t fault hx
  | ok a =>
    have hok : (x.mapError g t).1 = .ok a := by simp [Change.mapError, hx]
    rw [hok] at herr
    cases herr

/-- Whatever is done after steps that write nothing only has to fail cleanly itself. -/
theorem LeavesFiles.bind_failsCleanly (hx : x.LeavesFiles) (hf : ∀ a, (f a).FailsCleanly) :
    (x >>= f).FailsCleanly := by
  intro t err herr
  have hfirst := hx t
  rw [bind_apply] at herr ⊢
  rcases hrun : x t with ⟨result, t₁⟩
  rw [hrun] at hfirst herr
  cases result with
  | error fault => exact hfirst
  | ok a => exact hfirst.trans (hf a t₁ err herr)

/-- A change that does not fail in any tree. -/
def Succeeds (x : Change ε α) : Prop := ∀ t, ∃ a, (x t).1 = .ok a

/-- A result alone is no failure. -/
theorem succeeds_pure (a : α) : (pure a : Change ε α).Succeeds := fun _ => ⟨a, rfl⟩

/-- Nothing that comes of steps that fail cleanly does otherwise, if what is done after them cannot
fail. -/
theorem FailsCleanly.bind (hx : x.FailsCleanly) (hf : ∀ a, (f a).Succeeds) :
    (x >>= f).FailsCleanly := by
  intro t err herr
  have hfirst := hx t
  rw [bind_apply] at herr ⊢
  rcases hrun : x t with ⟨result, t₁⟩
  rw [hrun] at hfirst herr
  cases result with
  | error fault => exact hfirst fault rfl
  | ok a =>
    obtain ⟨b, hb⟩ := hf a t₁
    rw [hb] at herr
    cases herr

end Change

/-! ## Writing a file -/

namespace FileTree

/-- Making directories leaves the files, whether it succeeds or not. -/
theorem needDirectory_leavesFiles (p : Path) : (needDirectory p).LeavesFiles := by
  apply Change.LeavesFiles.mapError
  intro t
  exact (createDirectories_grows (t := t) (p := p) rfl).1.sameFiles

/-- A staged write that fails changes no file. -/
theorem replaceFile_failsCleanly (draw : UInt32) (directory : Path) (stem : String)
    (target : Path) (content : Bytes) :
    (replaceFile draw directory stem target content).FailsCleanly := by
  intro t err herr
  rw [eq_of_replaceFile_error (Change.eq_of_fst herr)]
  exact .refl t

end FileTree

/-- Storing an object changes no file if it fails. -/
theorem Database.storeRaw_failsCleanly (db : Database) (draw : UInt32) (kind : String)
    (payload : Bytes) :
    (db.storeRaw draw kind payload).FailsCleanly := by
  unfold storeRaw
  apply (Change.leavesFiles_look _).bind_failsCleanly
  intro id
  apply (Change.leavesFiles_look _).bind_failsCleanly
  intro present
  split_ifs
  · exact (Change.leavesFiles_pure id).failsCleanly
  · apply (FileTree.needDirectory_leavesFiles _).bind_failsCleanly
    intro _
    exact (FileTree.replaceFile_failsCleanly draw _ _ _ _).bind fun _ => Change.succeeds_pure id

/-- Setting a branch changes no file if it fails. -/
theorem Refs.setBranch_failsCleanly (refs : Refs) (draw : UInt32) (branch : BranchName)
    (id : ObjectId) :
    (refs.setBranch draw branch id).FailsCleanly := fun _ _ herr =>
  (grows_of_setBranch_error (Change.eq_of_fst herr)).sameFiles

/-! ## The operations of a repository -/

namespace Repository

variable (repo : Repository) (draw : UInt32)

/-- Building a tree changes no file if it fails, whether the entries or the write are at fault. -/
theorem buildTree_failsCleanly (entries : List TreeEntry) :
    (repo.buildTree draw entries).FailsCleanly := by
  unfold buildTree
  apply (Change.leavesFiles_look _).bind_failsCleanly
  exact fun tree => repo.database.storeRaw_failsCleanly draw _ _

/-- Building a commit changes no file if it fails. -/
theorem buildCommit_failsCleanly (commit : Commit) : (repo.buildCommit draw commit).FailsCleanly :=
  repo.database.storeRaw_failsCleanly draw _ _

/-- Setting a branch by a name changes no file if it fails, whether the name or the write is at
fault. -/
theorem setBranch_failsCleanly (name : String) (id : ObjectId) :
    (repo.setBranch draw name id).FailsCleanly := by
  unfold setBranch
  apply (Change.leavesFiles_look _).bind_failsCleanly
  exact fun branch => repo.refs.setBranch_failsCleanly draw branch id

/-- Creating a repository changes no file if it fails. -/
theorem create_failsCleanly : (repo.create draw).FailsCleanly := by
  unfold create
  apply (FileTree.needDirectory_leavesFiles _).bind_failsCleanly
  intro _
  apply (FileTree.needDirectory_leavesFiles _).bind_failsCleanly
  intro _ t err herr
  rcases stage_installHead_cases draw repo.gitPath repo.headPath
    (ofString_symbolic_ne_nil repo.layout.defaultBranch) t with ⟨err', hfail⟩ | ⟨hkeep, -⟩ |
      ⟨l, -, -, hput⟩
  · rw [hfail]
    exact .refl t
  · rw [hkeep] at herr
    cases herr
  · rw [hput] at herr
    cases herr

end Repository

end ObjectStore
