import Mathlib.Data.List.Perm.Basic
import ObjectStore.Proofs.Database.Directories
import ObjectStore.Proofs.FileTree.Locality
import ObjectStore.Proofs.Refs.Branches
import ObjectStore.Revision

/-!
# Resolving without looking outside

Revisions are resolved in the git directory, and all that is read for that lies below it, unless a
symbolic ref leads out. The target of a symbolic ref is taken from the git directory as it stands, so
`ref: ../outside` and `ref: /outside` name files of anyone.

* `Refs.FollowsInside`: every file that is read to follow a ref is below the git directory;
  `Refs.HeadInside`, `Refs.BranchInside` and `Repository.RevisionInside` say so of `HEAD`, of a branch
  and of a revision.
* `Repository.resolve_inside`: then nothing outside makes a difference. The current branch is read
  without following anything, so that holds of it in any case.
-/

namespace ObjectStore

/-! ## Following refs -/

namespace BranchName

/-- The ref of a branch does not lead out of the git directory. -/
theorem isInside_ref (branch : BranchName) :
    (⟨Layout.headsFront ++ branch.name⟩ : Path).IsInside := by
  have hfront : ∀ n ∈ ["refs", "heads"], Path.IsPlain n := by decide
  refine ⟨?_, ?_⟩
  · rw [Path.isAbsolute, toList_ref]
    rfl
  · rw [pieces_ref]
    refine Path.stays_of_plain fun n hn => ?_
    exact (List.mem_append.mp hn).elim (hfront n) (branch.components_plain n)

end BranchName

namespace Refs

variable {refs : Refs} {t t' : FileTree} {base q : Path}

/-- Every file that is read to follow a ref lies below the git directory: the ref's own path, taken
from there, does not lead out, and nor does the target of a symbolic ref on the way. -/
def FollowsInside (refs : Refs) (t : FileTree) : Nat → String → Path → Prop
  | 0, _, _ => True
  | reads + 1, name, q =>
    q.IsInside ∧
      match read t name (refs.gitPath.join q) with
      | .ok (some (.symbolic target)) => refs.FollowsInside t reads target ⟨target⟩
      | _ => True

instance decidableFollowsInside (refs : Refs) (t : FileTree) :
    ∀ reads name q, Decidable (refs.FollowsInside t reads name q)
  | 0, _, _ => isTrue trivial
  | reads + 1, name, q =>
    have : Decidable (match read t name (refs.gitPath.join q) with
        | .ok (some (.symbolic target)) => refs.FollowsInside t reads target ⟨target⟩
        | _ => True) :=
      match read t name (refs.gitPath.join q) with
      | .ok (some (.symbolic target)) => decidableFollowsInside refs t reads target ⟨target⟩
      | .ok (some (.direct _)) => isTrue trivial
      | .ok none => isTrue trivial
      | .error _ => isTrue trivial
    inferInstanceAs (Decidable (_ ∧ _))

/-- What is read to follow `HEAD` lies below the git directory. -/
def HeadInside (refs : Refs) (t : FileTree) : Prop :=
  refs.FollowsInside t readLimit Layout.headFile ⟨Layout.headFile⟩

/-- What is read to follow a branch lies below the git directory. -/
def BranchInside (refs : Refs) (t : FileTree) (branch : BranchName) : Prop :=
  refs.FollowsInside t readLimit branch.name ⟨Layout.headsFront ++ branch.name⟩

instance (refs : Refs) (t : FileTree) : Decidable (refs.HeadInside t) :=
  decidableFollowsInside refs t readLimit Layout.headFile ⟨Layout.headFile⟩

instance (refs : Refs) (t : FileTree) (branch : BranchName) :
    Decidable (refs.BranchInside t branch) :=
  decidableFollowsInside refs t readLimit branch.name ⟨Layout.headsFront ++ branch.name⟩

/-- Reading a ref depends only on what is at its path. -/
theorem read_congr (h : FileTree.AgreeBelow base t t') (name : String) :
    read t name base = read t' name base := by
  rw [read, read, h.readText]

/-- A ref that is followed below the git directory leads to the same id in trees that agree there. -/
theorem follow_congr (h : FileTree.AgreeBelow refs.gitPath t t') {reads : Nat} {name : String}
    (hinside : refs.FollowsInside t reads name q) :
    refs.follow t reads name (refs.gitPath.join q)
      = refs.follow t' reads name (refs.gitPath.join q) := by
  induction reads generalizing name q with
  | zero => rfl
  | succ reads ih =>
    obtain ⟨hq, hnext⟩ := hinside
    rw [follow, follow, ← read_congr (h.join hq)]
    cases hread : read t name (refs.gitPath.join q) with
    | error err => rfl
    | ok content =>
      rw [hread] at hnext
      cases content with
      | none => rfl
      | some content =>
        cases content with
        | direct id => rfl
        | symbolic target => exact ih hnext

/-- Trees that agree below the git directory agree on `HEAD`. -/
theorem agreeBelow_headPath (h : FileTree.AgreeBelow refs.gitPath t t') :
    FileTree.AgreeBelow refs.headPath t t' := by
  have hfile : (⟨Layout.headFile⟩ : Path).IsInside := by decide
  exact h.join hfile

/-- Trees that agree below the git directory have the same current branch. -/
theorem readHead_congr (h : FileTree.AgreeBelow refs.gitPath t t') :
    refs.readHead t = refs.readHead t' := by
  rw [readHead, readHead, read_congr (agreeBelow_headPath h)]

/-- The current branch resolves alike in both, if nothing on the way leads out. -/
theorem resolveHead_congr (h : FileTree.AgreeBelow refs.gitPath t t')
    (hinside : refs.HeadInside t) : refs.resolveHead t = refs.resolveHead t' := by
  rw [resolveHead, resolveHead, (agreeBelow_headPath h).isPresent, headPath,
    follow_congr h hinside]

/-- A branch resolves alike in both, if nothing on the way leads out. -/
theorem resolveBranch_congr (h : FileTree.AgreeBelow refs.gitPath t t') {branch : BranchName}
    (hinside : refs.BranchInside t branch) :
    refs.resolveBranch t branch = refs.resolveBranch t' branch := by
  rw [resolveBranch, resolveBranch, branchPath_eq, follow_congr h hinside]

end Refs

/-! ## Looking for ids -/

namespace Database

variable {db : Database} {t t' : FileTree} {digits fan : List Char}

/-- The objects found in a directory are the same, up to their order. -/
theorem findIn_perm (h : FileTree.AgreeBelow db.objects t t') (hne : fan ≠ [])
    (hfan : ∀ c ∈ fan, (Bytes.hexValue? c).isSome = true) :
    (db.findIn t digits fan).Perm (db.findIn t' digits fan) := by
  have hinside := (isName_ofList hne hfan).isInside
  exact (h.join hinside).namesAt_perm.filterMap _

/-- The same ids are found in trees that agree below the directory of the objects. -/
theorem find_congr (h : FileTree.AgreeBelow db.objects t t') (text : String) :
    db.find t text = db.find t' text := by
  by_cases hdigits : ∀ c ∈ text.toList.map Char.toLower, (Bytes.hexValue? c).isSome = true
  · rw [find_of_digits hdigits, find_of_digits hdigits]
    refine ObjectId.mergeSort_eq_of_perm (List.Perm.flatMap_left _ fun fan hfan => ?_)
    obtain ⟨hne, hchars⟩ := isSome_hexValue?_of_mem_fans hdigits hfan
    exact findIn_perm h hne hchars
  · rw [find_of_not_digits hdigits, find_of_not_digits hdigits]

end Database

/-! ## Resolving -/

namespace Repository

/-- What is read to resolve a revision lies below the git directory: `HEAD` and the branches do not
lead out, as far as the revision names one of them. -/
def RevisionInside (repo : Repository) (t : FileTree) (revision : String) : Prop :=
  if revision = Layout.headFile then repo.refs.HeadInside t
  else ∀ branch, repo.branchNamed? t revision = some branch → repo.refs.BranchInside t branch

variable {repo : Repository} {t t' : FileTree}

/-- Whether a revision names a branch depends only on the git directory. -/
theorem branchNamed?_congr (h : FileTree.AgreeBelow repo.gitPath t t') (revision : String) :
    repo.branchNamed? t revision = repo.branchNamed? t' revision := by
  have hfile : ∀ branch, t.isFile (repo.refs.branchPath branch)
      = t'.isFile (repo.refs.branchPath branch) := by
    intro branch
    rw [Refs.branchPath_eq]
    exact (h.join branch.isInside_ref).isFile
  simp only [branchNamed?, hfile]

/-- What digits resolve to depends only on the git directory. -/
theorem resolveDigits_congr (h : FileTree.AgreeBelow repo.gitPath t t') (revision : String) :
    repo.resolveDigits t revision = repo.resolveDigits t' revision := by
  have hinside : (⟨"objects"⟩ : Path).IsInside := by decide
  have hobjects : FileTree.AgreeBelow repo.database.objects t t' := h.join hinside
  rw [resolveDigits, resolveDigits, Database.find_congr hobjects]

/-- In trees that agree below the git directory, the current branch is the same, and whatever is
followed without leading out comes to the same id or the same error: `HEAD`, every branch and every
revision. -/
theorem resolve_inside (h : FileTree.AgreeBelow repo.gitPath t t') :
    repo.refs.readHead t = repo.refs.readHead t' ∧
    (repo.refs.HeadInside t → repo.refs.resolveHead t = repo.refs.resolveHead t') ∧
    (∀ branch, repo.refs.BranchInside t branch →
      repo.refs.resolveBranch t branch = repo.refs.resolveBranch t' branch) ∧
    ∀ revision, repo.RevisionInside t revision →
      repo.resolve t revision = repo.resolve t' revision := by
  have hrefs : FileTree.AgreeBelow repo.refs.gitPath t t' := h
  refine ⟨Refs.readHead_congr hrefs, Refs.resolveHead_congr hrefs,
    fun branch => Refs.resolveBranch_congr hrefs, fun revision hinside => ?_⟩
  rw [RevisionInside] at hinside
  rw [resolve, resolve, ← branchNamed?_congr h, ← resolveDigits_congr h]
  split_ifs at hinside ⊢ with hrevision
  · rw [Refs.resolveHead_congr hrefs hinside]
  · cases hnamed : repo.branchNamed? t revision with
    | none => rfl
    | some branch =>
      simp only
      rw [Refs.resolveBranch_congr hrefs (hinside branch hnamed)]

/-- A tree in which two symbolic refs stay below the git directory, one of them through a step up, and
the same tree with a file beside the git directory. -/
theorem resolve_inside_up :
    let repo : Repository := ⟨⟨"/"⟩, {}⟩
    let main : BranchName := ⟨"main", by decide⟩
    let one : ObjectId := ⟨List.replicate 20 1, rfl⟩
    let nodes : List (Location × Node) :=
      [([".git"], .directory), ([".git", "refs"], .directory),
        ([".git", "refs", "heads"], .directory),
        ([".git", "refs", "heads", "main"], .file (Bytes.ofString "ref: refs/../id")),
        ([".git", "id"], .file (Refs.branchContent one)),
        ([".git", "HEAD"], .file (Bytes.ofString "ref: refs/heads/main"))]
    let t := nodes.foldl (fun t e => t.put e.1 e.2) FileTree.empty
    let t' := t.put ["outside"] (.file [])
    FileTree.AgreeBelow repo.gitPath t t' ∧ repo.refs.HeadInside t ∧
      repo.refs.BranchInside t main ∧ repo.RevisionInside t "main" ∧
      repo.refs.readHead t = repo.refs.readHead t' ∧
      repo.refs.resolveHead t = repo.refs.resolveHead t' ∧
      repo.refs.resolveBranch t main = repo.refs.resolveBranch t' main ∧
      repo.resolve t "main" = repo.resolve t' "main" ∧ repo.resolve t "main" = .ok one := by
  intro repo main one nodes t t'
  obtain ⟨hroot, hfree, hhead, hmain, hnamed, hone⟩ :
      t.locate repo.gitPath = .ok [".git"] ∧ t.lookup ["outside"] ≠ some .directory ∧
        repo.refs.HeadInside t ∧ repo.refs.BranchInside t main ∧
        repo.branchNamed? t "main" = some main ∧ repo.resolve t "main" = .ok one := by
    decide +kernel
  have hagree : FileTree.AgreeBelow repo.gitPath t t' :=
    FileTree.AgreeBelow.put (by decide) hroot (by decide) hfree _
  have hrevision : repo.RevisionInside t "main" := by
    rw [RevisionInside, if_neg (by decide)]
    intro branch hbranch
    obtain rfl : main = branch := Option.some.inj (hnamed.symm.trans hbranch)
    exact hmain
  obtain ⟨hreadHead, hresolveHead, hresolveBranch, hresolve⟩ := resolve_inside hagree
  exact ⟨hagree, hhead, hmain, hrevision, hreadHead, hresolveHead hhead,
    hresolveBranch main hmain, hresolve "main" hrevision, hone⟩

/-- Two trees that differ only beside the git directory. A HEAD that leads out of it is followed to
the id that one of them has there, and to nothing in the other. -/
theorem resolveHead_outside :
    let repo : Repository := ⟨⟨"/"⟩, {}⟩
    let one : ObjectId := ⟨List.replicate 20 1, rfl⟩
    let t := (FileTree.empty.put [".git"] .directory).put [".git", "HEAD"]
      (.file (Bytes.ofString "ref: ../outside"))
    let t' := t.put ["outside"] (.file (Refs.branchContent one))
    FileTree.AgreeBelow repo.gitPath t t' ∧ repo.refs.resolveHead t = .ok none ∧
      repo.refs.resolveHead t' = .ok (some one) ∧
      repo.resolve t "HEAD" = .error .unbornHead ∧ repo.resolve t' "HEAD" = .ok one := by
  intro repo one t t'
  have hroot : t.locate repo.gitPath = .ok [".git"] := by decide +kernel
  have hagree : FileTree.AgreeBelow repo.gitPath t t' :=
    FileTree.AgreeBelow.put (by decide) hroot (by decide) (by decide +kernel) _
  exact ⟨hagree, by decide +kernel⟩

end Repository

end ObjectStore
