import ObjectStore.Proofs.BranchName.Grammar
import ObjectStore.Proofs.Refs.Failure
import ObjectStore.Proofs.Refs.Listing

/-!
# Branches stay where they are kept

A branch name is part of a path, so its rules are what keeps a branch from reaching any other place.
They do, whatever the git directory and the file tree are: the path of a branch goes straight down
from the directory of the branches, by at least one step (`Refs.place_of_branchPath`), and pointing
the branch at an id writes no file but the one there (`Refs.file_setBranch_iff`). The staged file,
which lies in the git directory, is gone by then.

`Refs.branches_confined` puts this together with the grammar of the names.
-/

namespace ObjectStore

namespace Refs

variable {refs : Refs} {t t' : FileTree} {l : Location} {branch : BranchName} {id : ObjectId}
variable {draw : UInt32}

/-- A location that is not below the directory of the branches. -/
def IsOutside (refs : Refs) (t : FileTree) (l : Location) : Prop :=
  ∀ heads below, t.locate refs.headsPath = .ok heads → below ≠ [] → l ≠ heads ++ below

/-- Where the path of a branch leads is below the directory of the branches. -/
theorem place_of_branchPath (h : t.locate (refs.branchPath branch) = .ok l) :
    ∃ heads, t.locate refs.headsPath = .ok heads ∧ l = heads ++ branch.components := by
  have hextends := refs.branchPath_extends_headsPath branch
  obtain ⟨heads, hheads, -⟩ := FileTree.locate_of_extends h hextends branch.components_ne_nil
    refs.headsPath_text_ne
  exact ⟨heads, hheads, ((FileTree.locate_extends_eq_ok_iff hheads hextends).mp h).2.1⟩

/-- A branch that is pointed at an id writes a file below the directory of the branches, and no
other. -/
theorem grows_of_setBranch (h : refs.setBranch draw branch id t = (.ok (), t')) :
    ∃ heads, t'.locate refs.headsPath = .ok heads ∧
      FileTree.Grows (fun _ => True)
        (FileTree.oneFile (heads ++ branch.components) (branchContent id)) t t' := by
  obtain ⟨made, l, hgrows, hl, hdir, rfl⟩ := exists_put_of_setBranch h
  obtain ⟨heads, hheads, rfl⟩ := place_of_branchPath hl
  have hw : FileTree.oneFile (heads ++ branch.components) (branchContent id)
    (heads ++ branch.components) (branchContent id) := ⟨rfl, rfl⟩
  obtain ⟨hgrows', -⟩ := hgrows.ofNoFile.file_put hl hdir hw
  exact ⟨heads, (FileTree.locate_put_file_iff hdir).mpr hheads, hgrows'⟩

/-- Whatever comes of an attempt to point a branch at an id, the files outside the directory of the
branches are the same before and afterwards. -/
theorem file_setBranch_iff (refs : Refs) (draw : UInt32) (branch : BranchName) (id : ObjectId)
    (t : FileTree) {content : Bytes} (hl : refs.IsOutside (refs.setBranch draw branch id t).2 l) :
    (refs.setBranch draw branch id t).2.lookup l = some (.file content) ↔
      t.lookup l = some (.file content) := by
  rcases hset : refs.setBranch draw branch id t with ⟨result, t'⟩
  rw [hset] at hl
  cases result with
  | error err => exact (grows_of_setBranch_error hset).sameFiles l content
  | ok =>
    obtain ⟨heads, hheads, hgrows⟩ := grows_of_setBranch hset
    exact hgrows.file_iff fun written hw => hl heads _ hheads branch.components_ne_nil hw.1

/-- Branch names are the texts that keep the rules. No part of one is a step that stays or goes up;
its path continues that of the directory of the branches by at least one step, and leads, if it
leads anywhere, that many steps below where that one leads; and pointing the branch at an id leaves
every file outside that directory as it was, and no new one there, whatever number is drawn. -/
theorem branches_confined (name : String) :
    ((∃ branch, BranchName.parse name = .ok branch) ↔ BranchName.IsWellFormed name) ∧
      ∀ branch, BranchName.parse name = .ok branch →
        (∀ part ∈ name.toList.splitOn '/', part ≠ ".".toList ∧ part ≠ "..".toList) ∧
        BranchName.steps name ≠ [] ∧
        ∀ (refs : Refs) (t : FileTree),
          (refs.branchPath branch).Extends refs.headsPath (BranchName.steps name) ∧
          (∀ l, t.locate (refs.branchPath branch) = .ok l →
            ∃ heads, t.locate refs.headsPath = .ok heads ∧ l = heads ++ BranchName.steps name) ∧
          ∀ draw id l content, refs.IsOutside (refs.setBranch draw branch id t).2 l →
            ((refs.setBranch draw branch id t).2.lookup l = some (.file content) ↔
              t.lookup l = some (.file content)) := by
  refine ⟨⟨?_, ?_⟩, ?_⟩
  · rintro ⟨branch, hbranch⟩
    exact (BranchName.parse_eq_ok_iff_isWellFormed.mp hbranch).2
  · intro h
    exact ⟨⟨name, BranchName.isValid_iff_isWellFormed.mpr h⟩,
      BranchName.parse_eq_ok_iff_isWellFormed.mpr ⟨rfl, h⟩⟩
  · intro branch hbranch
    obtain ⟨rfl, hrules⟩ := BranchName.parse_eq_ok_iff_isWellFormed.mp hbranch
    rw [← branch.components_eq_steps]
    refine ⟨fun part hpart => hrules.ne_dot hpart, branch.components_ne_nil, fun refs t => ?_⟩
    exact ⟨refs.branchPath_extends_headsPath branch, fun l hl => place_of_branchPath hl,
      fun draw id l content hl => refs.file_setBranch_iff draw branch id t hl⟩

/-- In a new repository a branch is pointed at an id, and the file `HEAD`, which is beside the
directory of the branches, is still what it was. -/
theorem branches_confined_beside_head :
    let repo : Repository := ⟨⟨"/"⟩, {}⟩
    let branch : BranchName := ⟨"a/b.c", by decide⟩
    let id : ObjectId := ⟨List.replicate 20 1, rfl⟩
    let t := (repo.create 7 FileTree.empty).2
    let t' := (repo.refs.setBranch 7 branch id t).2
    BranchName.parse "a/b.c" = .ok branch ∧
      t'.lookup [".git", "refs", "heads", "a", "b.c"] = some (.file (branchContent id)) ∧
      repo.refs.IsOutside t' [".git", "HEAD"] ∧
      t'.lookup [".git", "HEAD"] = some (.file (Bytes.ofString "ref: refs/heads/master")) := by
  intro repo branch id t t'
  have hparse : BranchName.parse "a/b.c" = .ok branch := BranchName.parse_eq_ok_iff.mpr rfl
  obtain ⟨hwritten, hlocate, hhead⟩ :
      t'.lookup [".git", "refs", "heads", "a", "b.c"] = some (.file (branchContent id)) ∧
      t'.locate repo.refs.headsPath = .ok [".git", "refs", "heads"] ∧
      t.lookup [".git", "HEAD"] = some (.file (Bytes.ofString "ref: refs/heads/master")) := by
    decide +kernel
  have houtside : repo.refs.IsOutside t' [".git", "HEAD"] := by
    intro heads below hheads _
    rw [hlocate, Except.ok.injEq] at hheads
    rw [← hheads]
    simp
  obtain ⟨-, -, hconfined⟩ := (branches_confined "a/b.c").2 branch hparse
  obtain ⟨-, -, hsame⟩ := hconfined repo.refs t
  exact ⟨hparse, hwritten, houtside, (hsame 7 id [".git", "HEAD"] _ houtside).mpr hhead⟩

end Refs

end ObjectStore
