import ObjectStore.Proofs.Refs.Branches
import ObjectStore.Proofs.Refs.Pointings

/-!
# The last write wins

Branches are a map from names to ids, kept in nested directories. Whatever a run does, and however
many of its attempts fail or get in each other's way, a branch has the id that it was last pointed
at, and no id if it never was pointed at one. Names that differ only by slashes in a row are one key
of the map.

* `Repository.IsAt.utf8ByteSize_le_of_mem_pointings`: no name in the path of a branch that was
  pointed at an id is too long, so whatever was written can be read.
* `Repository.Points.resolveBranch_eq_ok_iff`: what a branch resolves to, in terms of the attempts.
* `Repository.resolveBranch_run_iff`: the same of any run from a fresh root.

The path of a name may be too long to be read although one with fewer slashes was written
(`Repository.resolveBranch_run_slashed`).
-/

namespace ObjectStore

/-! ## The map -/

/-- The id that a branch was last pointed at, by its own name or by one with other rows of
slashes. -/
def Pointing.lastOf (pointings : List Pointing) (branch : BranchName) : Option ObjectId :=
  (pointings.filter fun p => p.succeeded && p.branch.collapsed == branch.collapsed).getLast?.map
    Pointing.id

/-- The last pointing of a branch is the last one in its place. -/
theorem Pointing.lastOf_eq_last (pointings : List Pointing) (branch : BranchName) :
    lastOf pointings branch = last pointings branch.components := by
  have hkey : ∀ p : Pointing, (p.branch.collapsed == branch.collapsed)
      = (p.branch.components == branch.components) := by
    intro p
    rw [Bool.eq_iff_iff, beq_iff_eq, beq_iff_eq, BranchName.collapsed_eq_iff]
  simp only [lastOf, last, hkey]

namespace Repository

variable {repo : Repository} {r : Location} {t t₀ : FileTree} {attempts : List Pointing}
variable {branch : BranchName} {x : ObjectId} {draw : UInt32}

/-! ## What was written can be read -/

/-- A branch can be pointed at an id only if no name in its path is too long. -/
theorem IsAt.utf8ByteSize_le_of_setBranch (h : repo.IsAt r t)
    (hset : (repo.refs.setBranch draw branch x t).1.toBool = true) :
    ∀ n ∈ branch.components, n.utf8ByteSize ≤ FileTree.nameLimit := by
  obtain ⟨err, t', heq, -⟩ | ⟨t', heq, hgrows, hread⟩ := h.setBranch_spec draw branch x
  · rw [heq] at hset
    cases hset
  · have hat : repo.IsAt r t' := h.mono fun _ => hgrows.directory
    obtain ⟨-, hnames, -⟩ :=
      (FileTree.readFile_extends_iff hat.root (hat.branchPath_extends branch)).mp hread
    exact fun n hn => hnames n (List.mem_append_right _ hn)

/-- So it is with every attempt of a run that succeeded. -/
theorem IsAt.utf8ByteSize_le_of_mem_pointings (h : repo.IsAt r t) (ops : List Operation) :
    ∀ p ∈ repo.pointings ops t, p.succeeded = true →
      ∀ n ∈ p.branch.components, n.utf8ByteSize ≤ FileTree.nameLimit := by
  induction ops generalizing t with
  | nil => exact fun p hp => absurd hp List.not_mem_nil
  | cons op ops ih =>
    intro p hp hok
    rcases List.mem_append.mp hp with hp | hp
    · cases heffect : op.action.effect repo t with
      | point branch id =>
        rw [heffect, Effect.pointings, List.mem_singleton] at hp
        subst hp
        exact h.utf8ByteSize_le_of_setBranch hok
      | _ =>
        rw [heffect] at hp
        exact absurd hp List.not_mem_nil
    · exact ih (h.run_operation op) p hp hok

/-! ## Branches as a map -/

/-- A branch resolves to the id that the branches with its components were last pointed at, unless
its path is too long. -/
theorem Points.resolveBranch_eq_ok_iff (h : repo.Points r attempts t)
    (hfits : ∀ p ∈ attempts, p.succeeded = true →
      ∀ n ∈ p.branch.components, n.utf8ByteSize ≤ FileTree.nameLimit) :
    repo.refs.resolveBranch t branch = .ok x ↔
      (repo.refs.branchPath branch).text.utf8ByteSize < FileTree.pathLimit ∧
        Pointing.last attempts branch.components = some x := by
  constructor
  · intro hresolve
    obtain ⟨content, hfile⟩ := Refs.exists_readFile_of_resolveBranch hresolve
    obtain ⟨hshort, -, hlookup⟩ :=
      (FileTree.readFile_extends_iff h.root (h.branchPath_extends branch)).mp hfile
    obtain ⟨id, hlast, rfl⟩ := (h.file _ content branch.components_ne_nil).mp hlookup
    rw [Refs.resolveBranch_of_readFile hfile, Except.ok.injEq] at hresolve
    exact ⟨hshort, hresolve ▸ hlast⟩
  · rintro ⟨hshort, hlast⟩
    obtain ⟨p, hp, hok, hcomponents, -⟩ := Pointing.exists_of_last hlast
    exact Refs.resolveBranch_of_readFile
      (h.readFile_of_last hshort (hcomponents ▸ hfits p hp hok) hlast)

/-- After any run from a fresh root, a branch resolves to an id exactly if that is the one it was
last pointed at, slashes in a row counting as one, and its path is short enough to be read. Attempts
that failed decide nothing, nor do those at other branches. -/
theorem resolveBranch_run_iff (hfresh : repo.IsFresh r t₀) (ops : List Operation)
    (branch : BranchName) (x : ObjectId) :
    repo.refs.resolveBranch (repo.run ops t₀) branch = .ok x ↔
      (repo.refs.branchPath branch).text.utf8ByteSize < FileTree.pathLimit ∧
        Pointing.lastOf (repo.pointings ops t₀) branch = some x := by
  rw [Pointing.lastOf_eq_last]
  exact (hfresh.points.run ops).resolveBranch_eq_ok_iff
    (hfresh.utf8ByteSize_le_of_mem_pointings ops)

/-- Two branches in one directory, one of them pointed at two ids by different spellings. The
attempts at a branch above them and at one below them fail. -/
theorem resolveBranch_run_siblings :
    let repo : Repository := ⟨⟨"/"⟩, {}⟩
    let one : ObjectId := ⟨List.replicate 20 1, rfl⟩
    let two : ObjectId := ⟨List.replicate 20 2, rfl⟩
    let ops := ⟨7, .create⟩ :: settings
      [(1, "a/b", one), (2, "a/d", one), (3, "a", two), (3, "a//b", two), (4, "a/b/c", one)]
    repo.IsFresh [] FileTree.empty ∧
      repo.refs.resolveBranch (repo.run ops FileTree.empty) ⟨"a/b", by decide⟩ = .ok two ∧
      repo.refs.resolveBranch (repo.run ops FileTree.empty) ⟨"a/d", by decide⟩ = .ok one ∧
      ∀ x, repo.refs.resolveBranch (repo.run ops FileTree.empty) ⟨"a/b/c", by decide⟩ ≠ .ok x := by
  intro repo one two ops
  have hfresh : repo.IsFresh [] FileTree.empty := isFresh_empty rfl
  obtain ⟨hb, hd, hc⟩ :
      ((repo.refs.branchPath ⟨"a/b", by decide⟩).text.utf8ByteSize < FileTree.pathLimit ∧
        Pointing.lastOf (repo.pointings ops FileTree.empty) ⟨"a/b", by decide⟩ = some two) ∧
      ((repo.refs.branchPath ⟨"a/d", by decide⟩).text.utf8ByteSize < FileTree.pathLimit ∧
        Pointing.lastOf (repo.pointings ops FileTree.empty) ⟨"a/d", by decide⟩ = some one) ∧
      Pointing.lastOf (repo.pointings ops FileTree.empty) ⟨"a/b/c", by decide⟩ = none := by
    decide +kernel
  refine ⟨hfresh, (resolveBranch_run_iff hfresh ops _ two).mpr hb,
    (resolveBranch_run_iff hfresh ops _ one).mpr hd, fun x hresolve => ?_⟩
  obtain ⟨-, hlast⟩ := (resolveBranch_run_iff hfresh ops _ x).mp hresolve
  rw [hc] at hlast
  cases hlast

/-! ## A path that is too long -/

/-- No branch can be read by a name with so many slashes. -/
theorem IsFresh.resolveBranch_run_spread (hfresh : repo.IsFresh r t₀) (ops : List Operation)
    {n : Nat} (hn : FileTree.pathLimit ≤ n) (x : ObjectId) :
    repo.refs.resolveBranch (repo.run ops t₀) (BranchName.spread n) ≠ .ok x := by
  intro hresolve
  obtain ⟨hshort, -⟩ := ((hfresh.points.run ops).resolveBranch_eq_ok_iff
    (hfresh.utf8ByteSize_le_of_mem_pointings ops)).mp hresolve
  have hlong := repo.refs.lt_utf8ByteSize_branchPath_spread n
  omega

/-- A branch that was pointed at an id cannot be read by a name with many more slashes. -/
theorem resolveBranch_run_slashed :
    let repo : Repository := ⟨⟨"/"⟩, {}⟩
    let one : ObjectId := ⟨List.replicate 20 1, rfl⟩
    let long := BranchName.spread FileTree.pathLimit
    let ops := ⟨7, .create⟩ :: settings [(7, "a/b", one)]
    repo.IsFresh [] FileTree.empty ∧
      Pointing.lastOf (repo.pointings ops FileTree.empty) long = some one ∧
      repo.refs.resolveBranch (repo.run ops FileTree.empty) long ≠ .ok one := by
  intro repo one long ops
  have hfresh : repo.IsFresh [] FileTree.empty := isFresh_empty rfl
  refine ⟨hfresh, ?_, hfresh.resolveBranch_run_spread ops (Nat.le_refl _) one⟩
  rw [Pointing.lastOf_eq_last, BranchName.components_spread]
  decide +kernel

end Repository

end ObjectStore
