import ObjectStore.Proofs.FileTree.Failure
import ObjectStore.Proofs.Refs.Branches

/-!
# Attempts to point a branch at an id that fail

Pointing a branch at an id makes the directories of its file, stages the content and renames it.
Whichever of these fails, no file is added, changed or removed, the staged one included, and no
directory is removed. Directories that were made stay, as nothing takes them away again: but the
only thing that can go wrong after one was made is a path that is too long, so any other failure
leaves the file tree as it was (`Refs.setBranch_error`).

This is so if the path of the branch goes straight down from some directory that is there
(`Refs.LeadsDown`), as it does in every repository whose root or git directory exists. A path that
goes through a missing directory and up again comes to places that were there before.
-/

namespace ObjectStore

namespace Refs

variable {refs : Refs} {t t' : FileTree} {place : Location} {branch : BranchName} {id : ObjectId}
variable {err : StoreError} {draw : UInt32}

/-! ## Where branches lead -/

/-- The path of a branch goes straight down from a directory that is there, and `place` is where it
leads. -/
structure LeadsDown (refs : Refs) (t : FileTree) (branch : BranchName) (place : Location) :
    Prop where
  git : refs.gitPath.text ≠ ""
  exists_base : ∃ base r names, t.locate base = .ok r ∧ t.lookup r = some .directory ∧ names ≠ [] ∧
    (refs.branchPath branch).Extends base (names ++ branch.components) ∧
    place = r ++ (names ++ branch.components)

/-- So it does from a root that is there. -/
theorem leadsDown_of_isAt {repo : Repository} {r : Location} (h : repo.IsAt r t)
    (branch : BranchName) : repo.refs.LeadsDown t branch (Repository.branchPlace r branch) where
  git := h.gitPath_extends.text_ne
  exists_base :=
    ⟨_, r, _, h.root, h.directory, List.cons_ne_nil _ _, h.branchPath_extends branch, rfl⟩

/-! ## What is made -/

/-- Whatever fails, no file is added, changed or removed, and no directory is removed. -/
theorem grows_of_setBranch_error (hset : refs.setBranch draw branch id t = (.error err, t')) :
    FileTree.Grows (fun _ => True) FileTree.noFile t t' := by
  cases hparent : (refs.branchPath branch).parent? with
  | none =>
    simp only [setBranch, hparent] at hset
    obtain rfl := FileTree.eq_of_replaceFile_error hset
    exact FileTree.Grows.refl _
  | some directory =>
    rw [setBranch_of_parent? hparent] at hset
    obtain ⟨fault, -, hmake⟩ | ⟨made, hmake, hreplace⟩ := FileTree.needDirectory_bind_eq_error hset
    · exact (FileTree.createDirectories_grows hmake).1
    · obtain rfl := FileTree.eq_of_replaceFile_error hreplace
      exact (FileTree.createDirectories_grows hmake).1

namespace LeadsDown

variable (h : refs.LeadsDown t branch place)

include h

/-- The directory of the branch's file, below the one that is there and in the git directory. -/
theorem exists_directory : ∃ directory base r front n,
    (refs.branchPath branch).parent? = some directory ∧
      t.locate base = .ok r ∧ t.lookup r = some .directory ∧ front ≠ [] ∧
      directory.Extends base front ∧ (refs.branchPath branch).Extends base (front ++ [n]) ∧
      place = r ++ (front ++ [n]) ∧ ∃ names, names ≠ [] ∧ directory.Extends refs.gitPath names := by
  obtain ⟨hgit, base, r, names, hbase, hr, hne, hextends, rfl⟩ := h
  obtain ⟨front, n, hcomponents⟩ :=
    (List.eq_nil_or_concat' branch.components).resolve_left branch.components_ne_nil
  have hgitExtends := Refs.branchPath_extends branch hgit
  rw [hcomponents, ← List.append_assoc] at hextends hgitExtends
  have hfront : names ++ front ≠ [] := List.append_ne_nil_of_left_ne_nil hne _
  obtain ⟨directory, hparent, hdirectory⟩ := hextends.parent? hfront
  obtain ⟨_, hparent', hgitDirectory⟩ := hgitExtends.parent? (List.cons_ne_nil _ _)
  obtain rfl := Option.some.inj (hparent'.symm.trans hparent)
  refine ⟨_, base, r, _, n, hparent, hbase, hr, hfront, hdirectory, hextends, ?_, _,
    List.cons_ne_nil _ _, hgitDirectory⟩
  rw [hcomponents, List.append_assoc]

/-- Nothing is made but directories on the way to the branch's place. -/
theorem grows_of_setBranch_error (hset : refs.setBranch draw branch id t = (.error err, t')) :
    FileTree.Grows (· <+: place.dropLast) FileTree.noFile t t' := by
  obtain ⟨-, base, r, names, hbase, hr, hne, hextends, rfl⟩ := h
  obtain ⟨err', t'', hsame, hgrows⟩ | ⟨t'', hok, -⟩ :=
    setBranch_cases draw hbase hr hextends hne id
  · obtain ⟨-, rfl⟩ := Prod.mk.inj (hset.symm.trans hsame)
    exact hgrows
  · rw [hset] at hok
    cases hok

/-- Not even those are, unless a path is too long. -/
theorem nameTooLong_of_setBranch_error (hset : refs.setBranch draw branch id t = (.error err, t')) :
    (∃ path, err = .io path .nameTooLong) ∨ t' = t := by
  obtain ⟨directory, base, r, front, n, hparent, hbase, hr, hfront, hdirectory, hextends, rfl,
    names, hnames, hgit⟩ := h.exists_directory
  rw [setBranch_of_parent? hparent] at hset
  obtain ⟨fault, rfl, hmake⟩ | ⟨made, hmake, hreplace⟩ := FileTree.needDirectory_bind_eq_error hset
  · obtain rfl | hsame := FileTree.createWithin_error _ hbase hr hdirectory hfront hmake
    · exact Or.inl ⟨_, rfl⟩
    · exact Or.inr hsame
  -- The directory of the branch's file is there, and so the git directory is.
  obtain ⟨hgrows, hmade⟩ := FileTree.createDirectories_extends hmake hbase hr hdirectory hfront
  obtain ⟨l, hl, -⟩ := FileTree.isDirectory_iff.mp ((FileTree.createDirectories_grows hmake).2 rfl)
  obtain ⟨g, hg, hgdirectory⟩ := FileTree.locate_of_extends hl hgit hnames h.git
  obtain rfl := FileTree.eq_of_replaceFile_error hreplace
  obtain hlong | hthere := FileTree.replaceFile_error hg hgdirectory (by decide) (by decide)
    (hgrows.locate hbase) hextends (hmade rfl) hreplace
  · exact Or.inl hlong
  · exact Or.inr (FileTree.eq_of_createDirectories hmake hbase hr hdirectory hfront hextends hthere)

/-- Nor are they if the directory of the branch's file was there before. -/
theorem eq_of_setBranch_error (hset : refs.setBranch draw branch id t = (.error err, t'))
    (hthere : t.lookup place.dropLast = some .directory) : t' = t := by
  obtain ⟨directory, base, r, front, n, hparent, hbase, -, hfront, hdirectory, -, rfl, -⟩ :=
    h.exists_directory
  obtain ⟨init, last, rfl⟩ := (List.eq_nil_or_concat' front).resolve_left hfront
  rw [← List.append_assoc, List.dropLast_concat] at hthere
  have hsame := FileTree.createDirectories_of_lookup hbase hdirectory hthere
  rw [setBranch_of_parent? hparent] at hset
  obtain ⟨fault, -, hmake⟩ | ⟨made, hmake, hreplace⟩ := FileTree.needDirectory_bind_eq_error hset
  · rwa [hmake] at hsame
  · rw [hmake] at hsame
    exact (FileTree.eq_of_replaceFile_error hreplace).trans hsame

end LeadsDown

/-! ## Directories that stay -/

/-- The directory of a branch `a/b` is in the place of the branch `a`, however many slashes there
are between them. -/
theorem parent?_branchPath_spread (refs : Refs) (n : Nat) :
    (refs.branchPath (BranchName.spread n)).parent?
      = some (refs.branchPath ⟨"a", by decide⟩) := by
  have hname : (BranchName.spread n).name.toList
      = ['a'] ++ List.replicate (n + 1) '/' ++ "b".toList := BranchName.toList_spreadName n
  have htext : (refs.branchPath (BranchName.spread n)).text.toList
      = (refs.headsPath.text ++ refs.headsPath.separator).toList ++
        (['a'] ++ List.replicate (n + 1) '/' ++ "b".toList) := by
    rw [branchPath, Path.join_eq (BranchName.spread n).isAbsolute_name, String.toList_append, hname]
  have hlast : (['a'] ++ List.replicate (n + 1) '/' ++ "b".toList).getLast? = some 'b' :=
    List.getLast?_concat
  have hpieces : Path.pieces [] (['a'] ++ List.replicate (n + 1) '/' ++ "b".toList) = ["a", "b"] :=
    hname ▸ BranchName.components_spread n
  rw [Path.parent?_eq htext rfl (by decide) (by decide) hlast (by decide) (hpieces ▸ by decide),
    String.ofList_append, String.ofList_toList, branchPath,
    Path.join_eq (BranchName.isAbsolute_name _)]

/-- With so many slashes, the branch cannot be set once its directory is made. -/
theorem setBranch_spread {repo : Repository} {r : Location} {made : FileTree} (h : repo.IsAt r t)
    {n : Nat} (hn : FileTree.pathLimit ≤ n) (id : ObjectId)
    (hmake : FileTree.createDirectories (repo.refs.branchPath ⟨"a", by decide⟩) t
      = (.ok (), made)) :
    ∃ err, repo.refs.setBranch draw (BranchName.spread n) id t = (.error err, made) := by
  obtain ⟨err, t', hfail, -⟩ | ⟨t', -, hgrows, hread⟩ :=
    h.setBranch_spec draw (BranchName.spread n) id
  · refine ⟨err, hfail.trans ?_⟩
    rw [setBranch_of_parent? (repo.refs.parent?_branchPath_spread n)] at hfail
    obtain ⟨fault, -, hmake'⟩ | ⟨made', hmake', hreplace⟩ :=
      FileTree.needDirectory_bind_eq_error hfail
    · rw [hmake] at hmake'
      cases hmake'
    · obtain ⟨-, rfl⟩ := Prod.mk.inj (hmake.symm.trans hmake')
      rw [FileTree.eq_of_replaceFile_error hreplace]
  · have hat : repo.IsAt r t' := h.mono fun _ => hgrows.directory
    obtain ⟨hshort, -⟩ :=
      (FileTree.readFile_extends_iff hat.root (hat.branchPath_extends _)).mp hread
    have hlong := repo.refs.lt_utf8ByteSize_branchPath_spread n
    omega

/-! ## Failed attempts -/

/-- When pointing a branch at an id fails, no file is added, changed or removed, and no directory is
removed. If the path of the branch goes straight down from a directory that is there, then nothing
is made but directories on the way to the branch's place; and the file tree is as it was, unless the
failure is that a path is too long and one of those directories was missing. -/
theorem setBranch_error (hset : refs.setBranch draw branch id t = (.error err, t')) :
    FileTree.Grows (fun _ => True) FileTree.noFile t t' ∧
      ∀ place, refs.LeadsDown t branch place →
        FileTree.Grows (· <+: place.dropLast) FileTree.noFile t t' ∧
          ((∀ path, err ≠ .io path .nameTooLong) ∨ t.lookup place.dropLast = some .directory →
            t' = t) := by
  refine ⟨grows_of_setBranch_error hset, fun place h => ⟨h.grows_of_setBranch_error hset, ?_⟩⟩
  rintro (hother | hthere)
  · exact (h.nameTooLong_of_setBranch_error hset).resolve_left fun ⟨path, hlong⟩ =>
      hother path hlong
  · exact h.eq_of_setBranch_error hset hthere

/-- A branch below one that has a file. -/
theorem setBranch_error_below :
    let repo : Repository := ⟨⟨"/"⟩, {}⟩
    let one : ObjectId := ⟨List.replicate 20 1, rfl⟩
    let below : BranchName := ⟨"a/b", by decide⟩
    let t := repo.run (⟨7, .create⟩ :: Repository.settings [(7, "a", one)]) FileTree.empty
    repo.refs.setBranch 7 below one t
      = (.error (.io ⟨"/.git/refs/heads/a"⟩ .alreadyExists), t) := by
  intro repo one below t
  have hat : repo.IsAt [] t := (Repository.isFresh_empty rfl).toIsAt.run _
  have hfail : (repo.refs.setBranch 7 below one t).1
      = .error (.io ⟨"/.git/refs/heads/a"⟩ .alreadyExists) := by decide +kernel
  obtain ⟨t', hset⟩ : ∃ t', repo.refs.setBranch 7 below one t
      = (.error (.io ⟨"/.git/refs/heads/a"⟩ .alreadyExists), t') := ⟨_, Prod.ext hfail rfl⟩
  have hsame := ((setBranch_error hset).2 _ (leadsDown_of_isAt hat below)).2
    (Or.inl fun path => by simp)
  rw [hset, hsame]

/-- A branch whose path is too long leaves the directory that was made for it, so that the branch
with the name of that directory cannot be set any more. A git directory behind a missing one, where
a file is, leaves the missing one. -/
theorem setBranch_error_made :
    let repo : Repository := ⟨⟨"/"⟩, {}⟩
    let one : ObjectId := ⟨List.replicate 20 1, rfl⟩
    let short : BranchName := ⟨"a", by decide⟩
    let t := (repo.create 7 FileTree.empty).2
    let detour : Refs := ⟨⟨"/a/../b"⟩⟩
    let blocked := FileTree.empty.put ["b"] (.file [])
    (∃ err made,
      repo.refs.setBranch 7 (BranchName.spread FileTree.pathLimit) one t = (.error err, made) ∧
        t.lookup [".git", "refs", "heads", "a"] = none ∧
        made.lookup [".git", "refs", "heads", "a"] = some .directory ∧
        (repo.refs.setBranch 7 short one t).1.toBool = true ∧
        (repo.refs.setBranch 7 short one made).1.toBool = false) ∧
      (detour.setBranch 7 short one blocked).1
        = .error (.io ⟨"/a/../b/refs/heads"⟩ .alreadyExists) ∧
      blocked.lookup ["a"] = none ∧
      (detour.setBranch 7 short one blocked).2.lookup ["a"] = some .directory := by
  intro repo one short t detour blocked
  refine ⟨?_, by decide +kernel⟩
  obtain ⟨hok, hfacts⟩ : (FileTree.createDirectories (repo.refs.branchPath short) t).1 = .ok () ∧
      t.lookup [".git", "refs", "heads", "a"] = none ∧
      (FileTree.createDirectories (repo.refs.branchPath short) t).2.lookup
        [".git", "refs", "heads", "a"] = some .directory ∧
      (repo.refs.setBranch 7 short one t).1.toBool = true ∧
      (repo.refs.setBranch 7 short one
        (FileTree.createDirectories (repo.refs.branchPath short) t).2).1.toBool = false := by
    decide +kernel
  have hat : repo.IsAt [] t := (Repository.isFresh_empty rfl).toIsAt.run [⟨7, .create⟩]
  obtain ⟨err, hset⟩ := setBranch_spread hat (Nat.le_refl _) one (Change.eq_of_fst hok)
  exact ⟨err, _, hset, hfacts⟩

end Refs

end ObjectStore
