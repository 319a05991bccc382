import ObjectStore.Proofs.Refs.Head
import ObjectStore.Proofs.Refs.LastWrite

/-!
# Branches without a file

A branch that was never pointed at an id has no file, and resolving it fails. What the failure is
called depends on the other branches: only a missing file is a missing ref. A file on the way to the
branch, or a directory in its place, is a fault of the file tree like any other, and so is a path
that is too long.

* `Refs.resolveBranch_of_notFound`, `Refs.resolveBranch_of_readFile_error`: how the fault of the
  file becomes that of the branch.
* `Repository.Points.not_isClear`, `Repository.Points.readFile_of_not_isClear`: when the place of a
  branch is not clear, and that something else is wrong then than a missing file.
* `Repository.resolveBranch_of_absent`: after any run since the repository was created, a branch
  without a file is reported as a missing ref exactly if its place is clear. Branches in the way of
  each other are not (`Repository.resolveBranch_ne_refNotFound`).
-/

namespace ObjectStore

/-! ## Faults of the file -/

namespace Refs

variable {refs : Refs} {t : FileTree} {branch : BranchName} {fault : IoFault}

/-- A branch without a file is not found. -/
theorem resolveBranch_of_notFound
    (h : t.readFile (refs.branchPath branch) = .error .notFound) :
    refs.resolveBranch t branch = .error (.refNotFound branch.name) := by
  rw [resolveBranch, readLimit, follow_of_notFound h]
  rfl

/-- Any other fault is passed on. -/
theorem resolveBranch_of_readFile_error
    (h : t.readFile (refs.branchPath branch) = .error fault) (hne : fault ≠ .notFound) :
    refs.resolveBranch t branch = .error (.io (refs.branchPath branch) fault) := by
  have hread : read t branch.name (refs.branchPath branch)
      = .error (.io (refs.branchPath branch) fault) := by
    rw [read, FileTree.readText_of_error h]
    cases fault with
    | notFound => exact absurd rfl hne
    | _ => rfl
  rw [resolveBranch, readLimit, follow, hread]
  rfl

end Refs

namespace Repository

variable {repo : Repository} {r : Location} {t t₀ t₁ : FileTree} {attempts : List Pointing}
variable {branch : BranchName}

/-! ## Places that are not clear -/

namespace Points

variable (h : repo.Points r attempts t)

include h

/-- It is not clear if a branch below it was pointed at an id. -/
theorem not_isClear (hlast : Pointing.last attempts branch.components = none)
    (hnames : ∀ n ∈ branch.components, n.utf8ByteSize ≤ FileTree.nameLimit) {p : Pointing}
    (hp : p ∈ attempts) (hok : p.succeeded = true)
    (hbelow : branch.components <+: p.branch.components) : ¬ repo.IsClear attempts t branch := by
  rintro ⟨hshort, -, hplace⟩
  obtain ⟨id, hid⟩ := Option.ne_none_iff_exists'.mp (Pointing.last_ne_none hp hok)
  have hfile := (h.file _ _ p.branch.components_ne_nil).mpr ⟨id, hid, rfl⟩
  obtain ⟨rest, hrest⟩ := hbelow
  have hne : rest ≠ [] := by
    rintro rfl
    rw [List.append_nil] at hrest
    rw [hrest, hid] at hlast
    cases hlast
  have hdir : t.lookup (headsPlace r branch.components) = some .directory := by
    rw [headsPlace, ← hrest, ← List.append_assoc, ← List.append_assoc] at hfile
    rw [headsPlace, ← List.append_assoc]
    exact FileTree.lookup_of_append (hfile ▸ Option.some_ne_none _) hne
  rw [(h.isDirectory_branchPath_iff hshort hnames).mpr hdir] at hplace
  cases hplace

/-- If a place is not clear, something else is wrong than that nothing is found. -/
theorem readFile_of_not_isClear (hlast : Pointing.last attempts branch.components = none)
    (hnames : ∀ n ∈ branch.components, n.utf8ByteSize ≤ FileTree.nameLimit)
    (hclear : ¬ repo.IsClear attempts t branch) :
    ∃ fault, fault ≠ .notFound ∧ t.readFile (repo.refs.branchPath branch) = .error fault := by
  have hextends := h.branchPath_extends branch
  by_cases hshort : (repo.refs.branchPath branch).text.utf8ByteSize < FileTree.pathLimit
  · cases hplace : t.isDirectory (repo.refs.branchPath branch) with
    | true => exact ⟨.isADirectory, nofun, FileTree.readFile_of_isDirectory hplace⟩
    | false =>
      obtain ⟨p, hp, hok, hprefix⟩ : ∃ p ∈ attempts, p.succeeded = true ∧
          p.branch.components <+: branch.components := by
        by_contra! hway
        exact hclear ⟨hshort, hway, hplace⟩
      obtain ⟨id, hid⟩ := Option.ne_none_iff_exists'.mp (Pointing.last_ne_none hp hok)
      have hfile := (h.file _ _ p.branch.components_ne_nil).mpr ⟨id, hid, rfl⟩
      refine ⟨.notADirectory, nofun, FileTree.readFile_extends_eq_notADirectory h.root hextends
        hshort (utf8ByteSize_le_of_mem_heads hnames)
        ((List.prefix_append_right_inj _).mpr hprefix) ?_ hfile⟩
      intro heq
      rw [List.append_cancel_left heq, hlast] at hid
      cases hid
  · exact ⟨.nameTooLong, nofun,
      FileTree.readFile_extends_eq_nameTooLong h.root hextends (Nat.not_lt.mp hshort)⟩

end Points

/-! ## After a run -/

/-- Since a repository was created in a fresh root, its branches point where the attempts say. -/
theorem IsFresh.points_of_create (hfresh : repo.IsFresh r t₀)
    (hcreate : repo.create draw t₀ = (.ok (), t₁)) (ops : List Operation) :
    repo.Points r (repo.pointings ops t₁) (repo.run ops t₁) := by
  have hpoints := hfresh.points.run (⟨draw, .create⟩ :: ops)
  rwa [run_cons, pointings, Operation.run, Action.run, hcreate] at hpoints

/-- A branch that was never pointed at an id, after any run since a repository was created in a
fresh root. Resolving it fails, with a missing ref exactly if its place is clear. It is clear if no
attempt at another branch got in its way, and it is not once a branch below it was pointed at an
id. -/
theorem resolveBranch_of_absent (hfresh : repo.IsFresh r t₀)
    (hcreate : repo.create draw t₀ = (.ok (), t₁)) (ops : List Operation) (ht : repo.run ops t₁ = t)
    (hnames : ∀ n ∈ branch.components, n.utf8ByteSize ≤ FileTree.nameLimit)
    (hnone : Pointing.lastOf (repo.pointings ops t₁) branch = none) :
    (∃ err, repo.refs.resolveBranch t branch = .error err ∧
      (err = .refNotFound branch.name ↔ repo.IsClear (repo.pointings ops t₁) t branch) ∧
      (err.isNotFound = true ↔ repo.IsClear (repo.pointings ops t₁) t branch)) ∧
    ((repo.refs.branchPath branch).text.utf8ByteSize < FileTree.pathLimit →
      (∀ p ∈ repo.pointings ops t₁, ¬ p.Obstructs branch.components) →
      repo.IsClear (repo.pointings ops t₁) t branch) ∧
    (∀ p ∈ repo.pointings ops t₁, p.succeeded = true →
      branch.components <+: p.branch.components →
      ¬ repo.IsClear (repo.pointings ops t₁) t branch) := by
  subst ht
  have hpoints := hfresh.points_of_create hcreate ops
  have hheads := hfresh.lookup_heads_run hcreate ops
  rw [Pointing.lastOf_eq_last] at hnone
  refine ⟨?_, fun hshort => hpoints.isClear hnone hshort hnames,
    fun p => hpoints.not_isClear hnone hnames⟩
  by_cases hclear : repo.IsClear (repo.pointings ops t₁) (repo.run ops t₁) branch
  · have hread := hpoints.readFile_of_isClear hheads hnone hnames hclear
    exact ⟨_, Refs.resolveBranch_of_notFound hread, iff_of_true rfl hclear, iff_of_true rfl hclear⟩
  · obtain ⟨fault, hfault, hread⟩ := hpoints.readFile_of_not_isClear hnone hnames hclear
    exact ⟨_, Refs.resolveBranch_of_readFile_error hread hfault, iff_of_false nofun hclear,
      iff_of_false nofun hclear⟩

/-- A branch beside another one is a missing ref; the branch above both is not. -/
theorem resolveBranch_of_absent_sibling :
    let repo : Repository := ⟨⟨"/"⟩, {}⟩
    let one : ObjectId := ⟨List.replicate 20 1, rfl⟩
    let above : BranchName := ⟨"a", by decide⟩
    let beside : BranchName := ⟨"a/d", by decide⟩
    let t₁ := (repo.create 7 FileTree.empty).2
    let ops := settings [(1, "c", one), (2, "a/b", one)]
    repo.IsFresh [] FileTree.empty ∧ repo.create 7 FileTree.empty = (.ok (), t₁) ∧
      (∃ err, repo.refs.resolveBranch (repo.run ops t₁) above = .error err ∧
        err.isNotFound ≠ true) ∧
      repo.refs.resolveBranch (repo.run ops t₁) beside = .error (.refNotFound "a/d") := by
  intro repo one above beside t₁ ops
  have hfresh : repo.IsFresh [] FileTree.empty := isFresh_empty rfl
  obtain ⟨hcreated, ⟨hnames, hnone, hshort, hclear⟩, hnames', hnone', p, hp, hok, hbelow⟩ :
      (repo.create 7 FileTree.empty).1 = .ok () ∧
      ((∀ n ∈ beside.components, n.utf8ByteSize ≤ FileTree.nameLimit) ∧
        Pointing.lastOf (repo.pointings ops t₁) beside = none ∧
        (repo.refs.branchPath beside).text.utf8ByteSize < FileTree.pathLimit ∧
        ∀ p ∈ repo.pointings ops t₁, ¬ p.Obstructs beside.components) ∧
      (∀ n ∈ above.components, n.utf8ByteSize ≤ FileTree.nameLimit) ∧
        Pointing.lastOf (repo.pointings ops t₁) above = none ∧
        ∃ p ∈ repo.pointings ops t₁, p.succeeded = true ∧
          above.components <+: p.branch.components := by decide +kernel
  have hcreate : repo.create 7 FileTree.empty = (.ok (), t₁) := Change.eq_of_fst hcreated
  obtain ⟨⟨err, hfail, hmissing, -⟩, hsuffices, -⟩ :=
    resolveBranch_of_absent hfresh hcreate ops rfl hnames hnone
  obtain ⟨⟨err', hfail', -, hfound'⟩, -, hnot'⟩ :=
    resolveBranch_of_absent hfresh hcreate ops rfl hnames' hnone'
  refine ⟨hfresh, hcreate, ⟨err', hfail', fun hfound => ?_⟩, ?_⟩
  · exact hnot' p hp hok hbelow (hfound'.mp hfound)
  · rw [hfail, hmissing.mpr (hsuffices hshort hclear)]

/-- A branch below one that was pointed at an id, and a branch above one. Neither was ever pointed
at an id itself, but resolving them fails with faults of the file tree. -/
theorem resolveBranch_ne_refNotFound :
    let repo : Repository := ⟨⟨"/"⟩, {}⟩
    let one : ObjectId := ⟨List.replicate 20 1, rfl⟩
    let above : BranchName := ⟨"a", by decide⟩
    let below : BranchName := ⟨"a/b", by decide⟩
    let t₁ := (repo.create 7 FileTree.empty).2
    (Pointing.lastOf (repo.pointings (settings [(7, "a", one)]) t₁) below = none ∧
      repo.refs.resolveBranch (repo.run (settings [(7, "a", one)]) t₁) below
        = .error (.io (repo.refs.branchPath below) .notADirectory)) ∧
      Pointing.lastOf (repo.pointings (settings [(7, "a/b", one)]) t₁) above = none ∧
      repo.refs.resolveBranch (repo.run (settings [(7, "a/b", one)]) t₁) above
        = .error (.io (repo.refs.branchPath above) .isADirectory) := by
  decide +kernel

end Repository

end ObjectStore
