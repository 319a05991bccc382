import ObjectStore.Proofs.Database.Persistence

/-!
# What branches point at

A branch points at the id in its file, and its name is the path of that file below the directory of
branches. So pointing a branch at an id changes nothing for the branches with other components
(`HoldsIds.resolveBranch_setBranch_of_ne`), and points all those with the same ones there
(`HoldsIds.resolveBranch_setBranch_of_eq`).

* `Refs.HoldsIds`: whatever file of a branch is there holds an id, as `Refs.setBranch` writes it. A
  branch is then resolved without following anything (`HoldsIds.resolveBranch_iff`).
* `HoldsIds.setBranch`, `Repository.holdsIds_run`: one setting keeps this, and so does every run of
  them.
* `Repository.resolveBranch_of_setBranch`: what a setting does to any branch, after any such run
  since the repository was created.
* `Repository.resolveBranch_aliased`: names that differ by slashes in a row share a file.
-/

namespace ObjectStore

/-! ## Files that hold an id -/

namespace Refs

variable {refs : Refs} {t t' : FileTree} {g : Location} {branch : BranchName} {id : ObjectId}
variable {name : String} {path : Path}

/-- Trimming takes away the line feed behind an id. -/
theorem trim_text (id : ObjectId) : Text.trim (id.text ++ "\n") = id.text := by
  have hdigit : ∀ n < 16, Text.isBlank (Nat.digitChar n) = false := by decide +kernel
  have hclear : ∀ c ∈ id.hex, Text.isBlank c = false := by
    intro c hc
    obtain ⟨n, hn, rfl⟩ := id.mem_hex hc
    exact hdigit n hn
  have htext : (id.text ++ "\n").toList = id.hex ++ ['\n'] := by simp [ObjectId.text]
  rw [Text.trim, htext, Text.trimmed_concat (by decide), Text.trimmed_eq_self]
  · rfl
  · exact fun c hc => hclear c (List.mem_of_mem_head? hc)
  · exact fun c hc => hclear c (List.mem_of_mem_getLast? hc)

/-- The text of an id is a direct ref. -/
theorem ofText?_text (id : ObjectId) : RefContent.ofText? id.text = some (.direct id) := by
  have hparse : ObjectId.parse? id.text = some id := ObjectId.parse?_text id
  unfold RefContent.ofText?
  split
  · rename_i heq
    have hr : 'r' ∈ id.hex := by
      rw [← String.toList_ofList (l := id.hex)]
      exact heq ▸ List.mem_cons_self
    exact absurd hr (id.not_mem_hex_of_ne (by decide))
  · rw [hparse]
    rfl

/-- A file that holds an id is a ref to that id. -/
theorem read_of_readFile (h : t.readFile path = .ok (branchContent id)) :
    read t name path = .ok (some (.direct id)) := by
  rw [read, FileTree.readText_of_readFile h]
  simp only [trim_text, ofText?_text]

/-- A ref that holds what setting a branch writes is followed to the id, in one read. -/
theorem follow_of_readFile {reads : Nat} (h : t.readFile path = .ok (branchContent id)) :
    refs.follow t (reads + 1) name path = .ok (some id) := by
  rw [follow, read_of_readFile h]
  rfl

/-- A ref is a file. -/
theorem exists_readFile_of_read {content : RefContent} (h : read t name path = .ok (some content)) :
    ∃ bytes, t.readFile path = .ok bytes := by
  cases hfile : t.readFile path with
  | ok bytes => exact ⟨bytes, rfl⟩
  | error fault =>
    cases fault <;> rw [read, FileTree.readText_of_error hfile] at h <;> cases h

/-- A branch whose file holds what setting a branch writes resolves to the id. -/
theorem resolveBranch_of_readFile
    (h : t.readFile (refs.branchPath branch) = .ok (branchContent id)) :
    refs.resolveBranch t branch = .ok id := by
  rw [resolveBranch, readLimit, follow_of_readFile h]
  rfl

/-- A branch that resolves has a file. -/
theorem exists_readFile_of_resolveBranch (h : refs.resolveBranch t branch = .ok id) :
    ∃ content, t.readFile (refs.branchPath branch) = .ok content := by
  cases hread : read t branch.name (refs.branchPath branch) with
  | error err =>
    rw [resolveBranch, readLimit, follow, hread] at h
    cases h
  | ok content =>
    cases content with
    | none =>
      rw [resolveBranch, readLimit, follow, hread] at h
      cases h
    | some content => exact exists_readFile_of_read hread

/-! ## The branches of a git directory -/

/-- Where the file of a branch is kept, when the git directory is the directory at `g`. -/
def branchPlace (g : Location) (branch : BranchName) : Location :=
  g ++ (["refs", "heads"] ++ branch.components)

/-- Only the branches with its components are kept in the file of a branch. -/
theorem not_oneFile_branchPlace {other : BranchName} (hne : branch.components ≠ other.components)
    (content bytes : Bytes) :
    ¬ FileTree.oneFile (branchPlace g branch) content (branchPlace g other) bytes := by
  rintro ⟨hplace, -⟩
  exact hne (List.append_cancel_left (List.append_cancel_left hplace)).symm

/-- The git directory is the directory at `g`. -/
structure IsAt (refs : Refs) (g : Location) (t : FileTree) : Prop where
  git : t.locate refs.gitPath = .ok g
  directory : t.lookup g = some .directory

namespace IsAt

variable {made : Location → Prop} {written : Location → Bytes → Prop} {other : BranchName}
variable {bytes bytes' : Bytes} (h : refs.IsAt g t)

include h

/-- The git directory stays where it is when the tree grows. -/
theorem grow (hgrows : FileTree.Grows made written t t') : refs.IsAt g t' :=
  ⟨hgrows.locate h.git, hgrows.directory h.directory⟩

/-- The path of a branch continues that of the git directory. -/
theorem branchPath_extends (branch : BranchName) :
    (refs.branchPath branch).Extends refs.gitPath (["refs", "heads"] ++ branch.components) :=
  Refs.branchPath_extends branch (FileTree.locate_eq_ok_iff.mp h.git).2.1

/-- Pointing a branch at an id fails and writes no file, or writes that of the branch. -/
theorem setBranch_cases (draw : UInt32) (branch : BranchName) (id : ObjectId) :
    (∃ err t', refs.setBranch draw branch id t = (.error err, t') ∧
        FileTree.Grows (fun _ => True) FileTree.noFile t t') ∨
      ∃ t', refs.setBranch draw branch id t = (.ok (), t') ∧
        FileTree.Grows (fun _ => True)
          (FileTree.oneFile (branchPlace g branch) (branchContent id)) t t' ∧
        t'.readFile (refs.branchPath branch) = .ok (branchContent id) := by
  obtain ⟨err, t', heq, hgrows⟩ | ⟨t', heq, hgrows, hread⟩ :=
    Refs.setBranch_cases draw h.git h.directory (h.branchPath_extends branch)
      (List.cons_ne_nil _ _) id
  · exact Or.inl ⟨err, t', heq, hgrows.mono (fun _ _ => trivial) fun _ _ hw => hw⟩
  · exact Or.inr ⟨t', heq, hgrows.mono (fun _ _ => trivial) fun _ _ hw => hw, hread⟩

/-- A tree that has grown, but not by the file of a branch, reads the same for that branch. -/
theorem readFile_iff (hgrows : FileTree.Grows made written t t')
    (hwritten : ∀ content, ¬ written (branchPlace g branch) content) :
    t'.readFile (refs.branchPath branch) = .ok bytes ↔
      t.readFile (refs.branchPath branch) = .ok bytes :=
  hgrows.readFile_iff h.git (h.branchPath_extends branch) hwritten

/-- Branches with the same components read the same file, unless a path is too long. -/
theorem readFile_of_components_eq (heq : branch.components = other.components)
    (hshort : (refs.branchPath other).text.utf8ByteSize < FileTree.pathLimit)
    (hfile : t.readFile (refs.branchPath branch) = .ok bytes) :
    t.readFile (refs.branchPath other) = .ok bytes := by
  rw [FileTree.readFile_extends_iff h.git (h.branchPath_extends _)] at hfile ⊢
  exact ⟨hshort, heq ▸ hfile.2⟩

/-- Branches with the same components read the same file. -/
theorem bytes_eq_of_components_eq (heq : branch.components = other.components)
    (hfile : t.readFile (refs.branchPath branch) = .ok bytes)
    (hother : t.readFile (refs.branchPath other) = .ok bytes') : bytes' = bytes := by
  have hshort := ((FileTree.readFile_extends_iff h.git (h.branchPath_extends other)).mp hother).1
  exact Except.ok.inj (hother.symm.trans (h.readFile_of_components_eq heq hshort hfile))

end IsAt

/-- The git directory is the directory at `g`, and whatever file of a branch is there holds an
id. -/
structure HoldsIds (refs : Refs) (g : Location) (t : FileTree) : Prop extends refs.IsAt g t where
  content : ∀ branch bytes, t.readFile (refs.branchPath branch) = .ok bytes →
    ∃ id, bytes = branchContent id

namespace HoldsIds

variable {other : BranchName} {result : Except StoreError Unit} {draw : UInt32}
variable (h : refs.HoldsIds g t)

include h

/-- What a branch points at is the id in its file. -/
theorem resolveBranch_iff : refs.resolveBranch t branch = .ok id ↔
    t.readFile (refs.branchPath branch) = .ok (branchContent id) := by
  refine ⟨fun hresolve => ?_, resolveBranch_of_readFile⟩
  obtain ⟨bytes, hfile⟩ := exists_readFile_of_resolveBranch hresolve
  obtain ⟨id', rfl⟩ := h.content branch bytes hfile
  obtain rfl := Except.ok.inj (hresolve.symm.trans (resolveBranch_of_readFile hfile))
  exact hfile

/-- Pointing a branch at an id leaves ids in the files of all branches. -/
theorem setBranch (hset : refs.setBranch draw branch id t = (result, t')) : refs.HoldsIds g t' := by
  obtain ⟨err, made, heq, hgrows⟩ | ⟨made, heq, hgrows, hread⟩ :=
    h.setBranch_cases draw branch id
  · obtain ⟨-, rfl⟩ := Prod.mk.inj (heq.symm.trans hset)
    refine ⟨h.grow hgrows, fun other bytes hfile => h.content other bytes ?_⟩
    exact (h.readFile_iff hgrows fun _ hw => hw).mp hfile
  · obtain ⟨-, rfl⟩ := Prod.mk.inj (heq.symm.trans hset)
    refine ⟨h.grow hgrows, fun other bytes hfile => ?_⟩
    by_cases hcomponents : branch.components = other.components
    · exact ⟨id, (h.grow hgrows).bytes_eq_of_components_eq hcomponents hread hfile⟩
    · refine h.content other bytes ((h.readFile_iff hgrows ?_).mp hfile)
      exact not_oneFile_branchPlace hcomponents _

/-- Pointing a branch at an id changes nothing for a branch with other components. -/
theorem resolveBranch_setBranch_of_ne (hset : refs.setBranch draw branch id t = (.ok (), t'))
    (hne : branch.components ≠ other.components) (y : ObjectId) :
    refs.resolveBranch t' other = .ok y ↔ refs.resolveBranch t other = .ok y := by
  rw [(h.setBranch hset).resolveBranch_iff, h.resolveBranch_iff]
  obtain ⟨err, made, heq, -⟩ | ⟨made, heq, hgrows, -⟩ := h.setBranch_cases draw branch id
  · rw [heq] at hset
    cases hset
  · obtain ⟨-, rfl⟩ := Prod.mk.inj (heq.symm.trans hset)
    exact h.readFile_iff hgrows (not_oneFile_branchPlace hne _)

/-- Pointing a branch at an id points every branch with the same components there. -/
theorem resolveBranch_setBranch_of_eq (hset : refs.setBranch draw branch id t = (.ok (), t'))
    (heq : branch.components = other.components)
    (hshort : (refs.branchPath other).text.utf8ByteSize < FileTree.pathLimit) :
    refs.resolveBranch t' other = .ok id := by
  rw [(h.setBranch hset).resolveBranch_iff]
  obtain ⟨err, made, hfail, -⟩ | ⟨made, hok, -, hread⟩ := h.setBranch_cases draw branch id
  · rw [hfail] at hset
    cases hset
  · obtain ⟨-, rfl⟩ := Prod.mk.inj (hok.symm.trans hset)
    exact (h.setBranch hset).readFile_of_components_eq heq hshort hread

end HoldsIds

end Refs

/-! ## Runs that point branches at ids -/

namespace Repository

variable {repo : Repository} {t t' t₀ t₁ : FileTree} {g r : Location} {draw draw' : UInt32}

/-- The operations that point branches at ids, one after the other, with the numbers that are drawn
for their staged files. -/
def settings (sets : List (UInt32 × String × ObjectId)) : List Operation :=
  sets.map fun (draw, name, id) => ⟨draw, .setBranch name id⟩

/-- One such operation leaves ids in the files of all branches. -/
theorem holdsIds_operation (h : repo.refs.HoldsIds g t) (draw : UInt32) (name : String)
    (id : ObjectId) :
    repo.refs.HoldsIds g (Operation.run repo ⟨draw, .setBranch name id⟩ t) := by
  rw [Operation.run_eq_apply_effect, Action.effect]
  cases BranchName.parse name with
  | error err => exact h
  | ok branch => exact h.setBranch rfl

/-- However branches are pointed at ids, their files hold ids. -/
theorem holdsIds_run (h : repo.refs.HoldsIds g t) (sets : List (UInt32 × String × ObjectId)) :
    repo.refs.HoldsIds g (repo.run (settings sets) t) := by
  induction sets generalizing t with
  | nil => exact h
  | cons set sets ih => exact ih (holdsIds_operation h set.1 set.2.1 set.2.2)

/-- The path of the git directory is not empty. -/
theorem gitPath_text_ne (hroot : repo.root.text ≠ "") : repo.gitPath.text ≠ "" := by
  rw [gitPath, Layout.gitPath, Path.join]
  split_ifs with habsolute
  · intro hempty
    rw [Path.isAbsolute, hempty] at habsolute
    cases habsolute
  · simp [hroot]
  · simp [hroot]

/-- Once a repository is created, its git directory is a directory. -/
theorem isAt_refs_of_create (hroot : repo.root.text ≠ "")
    (h : repo.create draw t = (.ok (), t')) : ∃ g, repo.refs.IsAt g t' := by
  have hgit := gitPath_text_ne hroot
  have hheads : (repo.layout.headsPath repo.root).Extends repo.gitPath ["refs", "heads"] :=
    (Path.extends_join_name hgit (by decide)).join "heads" (by decide)
  obtain ⟨l, hl, -⟩ := FileTree.isDirectory_iff.mp (isDirectory_of_create h).2
  obtain ⟨g, hg, hdirectory⟩ := FileTree.locate_of_extends hl hheads (List.cons_ne_nil _ _) hgit
  exact ⟨g, hg, hdirectory⟩

/-- A fresh repository has no branches once it is created. -/
theorem IsFresh.isFile_branchPath (hfresh : repo.IsFresh r t₀)
    (hcreate : repo.create draw t₀ = (.ok (), t₁)) (branch : BranchName) :
    t₁.isFile (repo.refs.branchPath branch) = false := by
  rw [Bool.eq_false_iff]
  intro hfile
  obtain ⟨l, content, hl, hlookup⟩ := FileTree.isFile_iff.mp hfile
  obtain ⟨err, t', heq, -⟩ | ⟨t', heq, hgrows, -⟩ := hfresh.create_spec draw
  · rw [hcreate] at heq
    cases heq
  obtain ⟨-, rfl⟩ := Prod.mk.inj (hcreate.symm.trans heq)
  have hat : repo.IsAt r t₁ := hfresh.mono fun _ => hgrows.directory
  obtain rfl := hat.eq_of_locate_branchPath hl
  obtain hsame | ⟨-, hdir, -⟩ | ⟨-, other, -, hhead⟩ := hgrows (branchPlace r branch)
  · rw [hsame, branchPlace, hfresh.empty _ (by simp)] at hlookup
    cases hlookup
  · rw [hlookup] at hdir
    cases hdir
  · have hplace := List.append_cancel_left hhead.place
    simp at hplace

/-- Pointing a branch at an id, in any state that was reached by pointing branches at ids since the
repository was created, whatever numbers were drawn. It changes nothing for the branches with other
components, and so for no other one without slashes in a row; but it points all branches with the
same components at the id, as far as their paths are not too long to be read. -/
theorem resolveBranch_of_setBranch (hroot : repo.root.text ≠ "")
    (hcreate : repo.create draw t₀ = (.ok (), t₁))
    (hnone : ∀ branch, t₁.isFile (repo.refs.branchPath branch) = false)
    (sets : List (UInt32 × String × ObjectId)) (ht : repo.run (settings sets) t₁ = t)
    {n m : BranchName} {x : ObjectId} (hset : repo.refs.setBranch draw' n x t = (.ok (), t')) :
    (n.components ≠ m.components →
      ∀ y, repo.refs.resolveBranch t' m = .ok y ↔ repo.refs.resolveBranch t m = .ok y) ∧
    (n ≠ m → BranchName.hasPair '/' '/' n.name.toList = false →
      BranchName.hasPair '/' '/' m.name.toList = false →
      ∀ y, repo.refs.resolveBranch t' m = .ok y ↔ repo.refs.resolveBranch t m = .ok y) ∧
    (n.components = m.components →
      (repo.refs.branchPath m).text.utf8ByteSize < FileTree.pathLimit →
      repo.refs.resolveBranch t' m = .ok x) := by
  obtain ⟨g, hat⟩ := isAt_refs_of_create hroot hcreate
  have hstart : repo.refs.HoldsIds g t₁ := by
    refine ⟨hat, fun branch bytes hfile => ?_⟩
    have htrue := FileTree.isFile_iff_readFile.mpr ⟨bytes, hfile⟩
    rw [hnone branch] at htrue
    cases htrue
  have h : repo.refs.HoldsIds g t := ht ▸ holdsIds_run hstart sets
  refine ⟨fun hne => h.resolveBranch_setBranch_of_ne hset hne, ?_,
    fun heq => h.resolveBranch_setBranch_of_eq hset heq⟩
  intro hne hn hm
  apply h.resolveBranch_setBranch_of_ne hset
  intro heq
  exact hne (BranchName.eq_of_components_eq hn hm heq)

/-- Two branches in one directory, in a repository created below the root. -/
theorem resolveBranch_of_setBranch_siblings :
    let repo : Repository := ⟨⟨"/"⟩, {}⟩
    let one : ObjectId := ⟨List.replicate 20 1, rfl⟩
    let two : ObjectId := ⟨List.replicate 20 2, rfl⟩
    let n : BranchName := ⟨"a/c", by decide⟩
    let m : BranchName := ⟨"a/b", by decide⟩
    let t := repo.run (settings [(1, "a/b", one), (4000000000, "a/..", two)])
      (repo.create 7 FileTree.empty).2
    (∀ branch, (repo.create 7 FileTree.empty).2.isFile (repo.refs.branchPath branch) = false) ∧
      (repo.create 7 FileTree.empty).1 = .ok () ∧ (repo.refs.setBranch 7 n two t).1 = .ok () ∧
      n.components ≠ m.components ∧
      repo.refs.resolveBranch (repo.refs.setBranch 7 n two t).2 m = .ok one := by
  intro repo one two n m t
  have hfresh : repo.IsFresh [] FileTree.empty := isFresh_empty rfl
  obtain ⟨hcreated, hok, hne, hbefore⟩ : (repo.create 7 FileTree.empty).1 = .ok () ∧
      (repo.refs.setBranch 7 n two t).1 = .ok () ∧ n.components ≠ m.components ∧
      repo.refs.resolveBranch t m = .ok one := by decide +kernel
  have hcreate : repo.create 7 FileTree.empty = (.ok (), (repo.create 7 FileTree.empty).2) :=
    Change.eq_of_fst hcreated
  have hnone := hfresh.isFile_branchPath hcreate
  have hset : repo.refs.setBranch 7 n two t = (.ok (), (repo.refs.setBranch 7 n two t).2) :=
    Change.eq_of_fst hok
  have hframe := (resolveBranch_of_setBranch (by decide) hcreate hnone _ rfl hset).1 hne one
  exact ⟨hnone, hcreated, hok, hne, hframe.mpr hbefore⟩

/-- Two names that are not the same, and a branch that points elsewhere once the other one is
set. -/
theorem resolveBranch_aliased :
    let repo : Repository := ⟨⟨"/"⟩, {}⟩
    let one : ObjectId := ⟨List.replicate 20 1, rfl⟩
    let two : ObjectId := ⟨List.replicate 20 2, rfl⟩
    let n : BranchName := ⟨"a//b", by decide⟩
    let m : BranchName := ⟨"a/b", by decide⟩
    let t := repo.run (settings [(7, "a/b", one)]) (repo.create 7 FileTree.empty).2
    (repo.create 7 FileTree.empty).1 = .ok () ∧ n ≠ m ∧
      (repo.refs.setBranch 7 n two t).1 = .ok () ∧ repo.refs.resolveBranch t m = .ok one ∧
      repo.refs.resolveBranch (repo.refs.setBranch 7 n two t).2 m = .ok two := by
  decide +kernel

end Repository

end ObjectStore
