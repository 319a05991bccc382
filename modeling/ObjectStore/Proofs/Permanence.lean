import ObjectStore.Proofs.Operation

/-!
# Files stay

What becomes of the files below the root of a repository, along every run from every tree.

* `Action.effect_cases`: an operation points no branch but the one it was given, and only those
  that create a repository write `HEAD`.
* `Repository.Becomes`: what operations may make of the content of a file. The file of a branch that
  one of them was given may come to hold an id, and an empty `HEAD` the default branch.
* `Repository.IsAt.file_run`: a run keeps every file, with a content that its operations may make of
  the one it had.
* `Repository.files_stay`: so every other file keeps its bytes, those of objects and a `HEAD` with
  something in it among them.
-/

namespace ObjectStore

/-! ## What operations are given -/

namespace Action

/-- The branch that an action is to point at an id, if it is given the name of one. -/
def branch? : Action → Option BranchName
  | setBranch name _ => BranchName.parse? name
  | updateRef branch _ => BranchName.parse? (Revision.withoutFront branch)
  | _ => none

/-- Whether an action creates a repository. -/
def creates : Action → Bool
  | create | createCommand => true
  | _ => false

end Action

/-- Both ways of reading a name agree. -/
theorem BranchName.parse?_of_parse {name : String} {branch : BranchName}
    (h : BranchName.parse name = .ok branch) : BranchName.parse? name = some branch := by
  unfold parse at h
  split at h
  · cases h
    assumption
  · cases h

/-- A result comes to the write it holds, or to none. -/
theorem Effect.ofResult_cases {ε : Type} (result : Except ε Effect) :
    ofResult result = .nothing ∨ ∃ effect, result = .ok effect ∧ ofResult result = effect := by
  cases result with
  | error err => exact Or.inl rfl
  | ok effect => exact Or.inr ⟨effect, rfl, rfl⟩

/-- What an action may come to: nothing, the storing of some object, the creation of the
repository, or pointing the very branch it was given at some id. -/
theorem Action.effect_cases (repo : Repository) (t : FileTree) (action : Action) :
    action.effect repo t = .nothing ∨ (∃ object, action.effect repo t = .store object) ∨
      (action.creates = true ∧ action.effect repo t = .create) ∨
      ∃ branch id, action.branch? = some branch ∧ action.effect repo t = .point branch id := by
  cases action with
  | create => exact Or.inr (Or.inr (Or.inl ⟨rfl, rfl⟩))
  | createCommand => exact Or.inr (Or.inr (Or.inl ⟨rfl, rfl⟩))
  | writeBlob content => exact Or.inr (Or.inl ⟨_, rfl⟩)
  | storeRaw kind payload => exact Or.inr (Or.inl ⟨_, rfl⟩)
  | buildCommit commit => exact Or.inr (Or.inl ⟨_, rfl⟩)
  | buildTree entries =>
    rw [effect]
    cases Tree.build entries with
    | error err => exact Or.inl rfl
    | ok tree => exact Or.inr (Or.inl ⟨_, rfl⟩)
  | setBranch name id =>
    rw [effect]
    cases hname : BranchName.parse name with
    | error err => exact Or.inl rfl
    | ok branch =>
      exact Or.inr (Or.inr (Or.inr ⟨branch, id, BranchName.parse?_of_parse hname, rfl⟩))
  | hashObject current file kind write =>
    rw [effect]
    cases write with
    | false => exact Or.inl rfl
    | true =>
      cases t.readFileFrom current file with
      | error fault => exact Or.inl rfl
      | ok payload => exact Or.inr (Or.inl ⟨_, rfl⟩)
  | makeTree listing =>
    rw [effect]
    obtain hnone | ⟨effect, hok, heffect⟩ := Effect.ofResult_cases _
    · exact Or.inl hnone
    · obtain ⟨entries, -, hok⟩ := bind_eq_ok_iff.mp hok
      obtain ⟨tree, -, hok⟩ := bind_eq_ok_iff.mp hok
      cases hok
      exact Or.inr (Or.inl ⟨_, heffect⟩)
  | commitTree env tree parents message =>
    rw [effect]
    obtain hnone | ⟨effect, hok, heffect⟩ := Effect.ofResult_cases _
    · exact Or.inl hnone
    · obtain ⟨tree, -, hok⟩ := bind_eq_ok_iff.mp hok
      obtain ⟨parents, -, hok⟩ := bind_eq_ok_iff.mp hok
      obtain ⟨author, -, hok⟩ := bind_eq_ok_iff.mp hok
      obtain ⟨committer, -, hok⟩ := bind_eq_ok_iff.mp hok
      cases hok
      exact Or.inr (Or.inl ⟨_, heffect⟩)
  | updateRef name revision =>
    rw [effect]
    obtain hnone | ⟨effect, hok, heffect⟩ := Effect.ofResult_cases _
    · exact Or.inl hnone
    · obtain ⟨id, -, hok⟩ := bind_eq_ok_iff.mp hok
      obtain ⟨branch, hbranch, hok⟩ := bind_eq_ok_iff.mp hok
      cases hok
      have hgiven := BranchName.parse?_of_parse (mapError_eq_ok_iff.mp hbranch)
      exact Or.inr (Or.inr (Or.inr ⟨branch, id, hgiven, heffect⟩))
  | revParse revision => exact Or.inl rfl
  | catFile revision aspect => exact Or.inl rfl
  | listBranches coloured => exact Or.inl rfl
  | log revision oneline mainline coloured => exact Or.inl rfl

namespace Repository

variable {repo : Repository} {r l : Location} {t : FileTree} {ops : List Operation}
variable {content content' content'' : Bytes}

/-! ## What becomes of a file -/

/-- What operations may make of a file with the given content, at the given location. -/
inductive Becomes (repo : Repository) (r : Location) (ops : List Operation) (l : Location)
    (content : Bytes) : Bytes → Prop where
  /-- It may stay as it is. -/
  | same : Becomes repo r ops l content content
  /-- It may be the file of a branch that one of them was given. -/
  | pointed (op : Operation) (branch : BranchName) (id : ObjectId) (hop : op ∈ ops)
      (hbranch : op.action.branch? = some branch) (place : l = branchPlace r branch) :
      Becomes repo r ops l content (Refs.branchContent id)
  /-- It may be a `HEAD` without content, if one of them creates the repository. -/
  | created (op : Operation) (hop : op ∈ ops) (hcreates : op.action.creates = true)
      (place : l = headPlace r) (empty : content = []) :
      Becomes repo r ops l content (Bytes.ofString (Layout.symbolic repo.layout.defaultBranch))

namespace Becomes

/-- What becomes of a file in a run becomes of it in one with more operations. -/
theorem mono {ops' : List Operation} (h : Becomes repo r ops l content content')
    (hsub : ops ⊆ ops') : Becomes repo r ops' l content content' := by
  cases h with
  | same => exact same
  | pointed op branch id hop hbranch place => exact pointed op branch id (hsub hop) hbranch place
  | created op hop hcreates place empty => exact created op (hsub hop) hcreates place empty

/-- What becomes of a file step by step becomes of it. -/
theorem trans (h : Becomes repo r ops l content content')
    (h' : Becomes repo r ops l content' content'') : Becomes repo r ops l content content'' := by
  cases h' with
  | same => exact h
  | pointed op branch id hop hbranch place => exact pointed op branch id hop hbranch place
  | created op hop hcreates place empty =>
    -- Nothing makes a file empty, so it was so from the start.
    cases h with
    | same => exact created op hop hcreates place empty
    | pointed op' branch id hop' hbranch place' =>
      rw [place'] at place
      exact absurd place branchPlace_ne_headPlace
    | created => exact absurd empty (ofString_symbolic_ne_nil _)

/-- A file that is neither that of a branch nor an empty `HEAD` stays as it is. -/
theorem eq_of_ne (h : Becomes repo r ops l content content')
    (hbranch : ∀ branch, l ≠ branchPlace r branch) (hhead : l = headPlace r → content ≠ []) :
    content' = content := by
  cases h with
  | same => rfl
  | pointed op branch id hop hgiven place => exact absurd place (hbranch branch)
  | created op hop hcreates place empty => exact absurd empty (hhead place)

end Becomes

/-! ## Files along a run -/

/-- No operation takes a file away. -/
theorem IsAt.file_run_operation (h : repo.IsAt r t) (op : Operation)
    (hfile : t.lookup l = some (.file content)) :
    ∃ content', (op.run repo t).lookup l = some (.file content') ∧
      Becomes repo r [op] l content content' := by
  have hop : op ∈ [op] := List.mem_singleton_self op
  have hgrows := h.apply_grows op.draw (op.action.effect repo t) l
  rw [← op.run_eq_apply_effect, hfile] at hgrows
  obtain hsame | ⟨hnone, -, -⟩ | ⟨-, content', hlookup, hwritten⟩ := hgrows
  · exact ⟨content, hsame, .same⟩
  · cases hnone
  refine ⟨content', hlookup, ?_⟩
  -- Something was written over the file: that is no object, which only goes where nothing is.
  obtain heffect | ⟨object, heffect⟩ | ⟨hcreates, heffect⟩ | ⟨branch, id, hbranch, heffect⟩ :=
    op.action.effect_cases repo t
  · rw [heffect] at hwritten
    exact hwritten.elim
  · rw [heffect] at hwritten
    have habsent := hwritten.2.absent
    rw [hfile] at habsent
    cases habsent
  · rw [heffect] at hwritten
    obtain ⟨hplace, hfree, rfl⟩ := hwritten
    rw [hfile] at hfree
    have hempty : content = [] := by simpa using hfree
    exact .created op hop hcreates hplace hempty
  · rw [heffect] at hwritten
    obtain ⟨hplace, rfl⟩ := hwritten
    exact .pointed op branch id hop hbranch hplace

/-- No run takes a file away, and what it holds afterwards the operations of the run may have made
of it. -/
theorem IsAt.file_run (h : repo.IsAt r t) (ops : List Operation)
    (hfile : t.lookup l = some (.file content)) :
    ∃ content', (repo.run ops t).lookup l = some (.file content') ∧
      Becomes repo r ops l content content' := by
  induction ops generalizing t content with
  | nil => exact ⟨content, hfile, .same⟩
  | cons op ops ih =>
    obtain ⟨between, hbetween, hfirst⟩ := h.file_run_operation op hfile
    obtain ⟨content', hlast, hrest⟩ := ih (h.run_operation op) hbetween
    have hop : [op] ⊆ op :: ops := List.cons_subset_cons op (List.nil_subset ops)
    exact ⟨content', hlast, (hfirst.mono hop).trans (hrest.mono (List.subset_cons_self op ops))⟩

/-- A path that leads to a file still does so after every run. -/
theorem IsAt.isFile_run (h : repo.IsAt r t) (ops : List Operation) {path : Path}
    (hfile : t.isFile path = true) : (repo.run ops t).isFile path = true := by
  obtain ⟨l, content, hl, hlookup⟩ := FileTree.isFile_iff.mp hfile
  obtain ⟨content', hlookup', -⟩ := h.file_run ops hlookup
  exact FileTree.isFile_iff.mpr
    ⟨l, content', FileTree.locate_of_directories (fun _ => h.directory_run ops) hl, hlookup'⟩

/-- A file that is neither that of a branch nor an empty `HEAD` is the same after every run. -/
theorem IsAt.file_run_of_ne (h : repo.IsAt r t) (ops : List Operation)
    (hfile : t.lookup l = some (.file content)) (hbranch : ∀ branch, l ≠ branchPlace r branch)
    (hhead : l = headPlace r → content ≠ []) :
    (repo.run ops t).lookup l = some (.file content) := by
  obtain ⟨content', hlookup, hbecomes⟩ := h.file_run ops hfile
  rwa [hbecomes.eq_of_ne hbranch hhead] at hlookup

/-- From every tree, with whatever files in it: every file below the root is there after every run.
It holds the same bytes, or it is the file of a branch that some operation of the run was given, or
it is a `HEAD` that was empty when some operation of the run created the repository. Everything
below the directory of objects holds the same bytes, and so does a `HEAD` with something in it. -/
theorem files_stay (hgit : repo.layout.gitDirectory = ⟨".git"⟩) (hroot : t.locate repo.root = .ok r)
    {names : List String} (hne : names ≠ []) (hfile : t.lookup (r ++ names) = some (.file content))
    (ops : List Operation) :
    (∃ content', (repo.run ops t).lookup (r ++ names) = some (.file content') ∧
      Becomes repo r ops (r ++ names) content content') ∧
    ([".git", "objects"] <+: names →
      (repo.run ops t).lookup (r ++ names) = some (.file content)) ∧
    (names = [".git", "HEAD"] → content ≠ [] →
      (repo.run ops t).lookup (r ++ names) = some (.file content)) := by
  have hbelow : t.lookup (r ++ names) ≠ none := by
    rw [hfile]
    exact Option.some_ne_none _
  have h : repo.IsAt r t := ⟨hgit, hroot, FileTree.lookup_of_append hbelow hne⟩
  refine ⟨h.file_run ops hfile, ?_, ?_⟩
  · rintro ⟨rest, rfl⟩
    refine h.file_run_of_ne ops hfile ?_ ?_
    · intro branch hplace
      have := List.append_cancel_left hplace
      simp at this
    · intro hplace
      have := List.append_cancel_left hplace
      simp at this
  · rintro rfl hcontent
    exact h.file_run_of_ne ops hfile (fun _ => branchPlace_ne_headPlace.symm) fun _ => hcontent

/-- An empty `HEAD` and a file that someone else left among the objects. -/
theorem files_stay_stray :
    let repo : Repository := ⟨⟨"/"⟩, {}⟩
    let objects := (FileTree.empty.put [".git"] .directory).put [".git", "objects"] .directory
    let stray := objects.put [".git", "objects", "tmp-obj-1"] (.file [7])
    let t := stray.put [".git", "HEAD"] (.file [])
    let ops : List Operation :=
      [⟨1, .createCommand⟩, ⟨1, .storeRaw "blob" [1, 2]⟩, ⟨7, .updateRef "master" "HEAD"⟩,
        ⟨7, .create⟩]
    repo.layout.gitDirectory = ⟨".git"⟩ ∧ t.locate repo.root = .ok [] ∧
      t.lookup [".git", "objects", "tmp-obj-1"] = some (.file [7]) ∧
      (repo.run ops t).lookup [".git", "objects", "tmp-obj-1"] = some (.file [7]) ∧
      t.lookup [".git", "HEAD"] = some (.file []) ∧
      ∃ content', (repo.run ops t).lookup [".git", "HEAD"] = some (.file content') ∧
        Becomes repo [] ops [".git", "HEAD"] [] content' := by
  intro repo objects stray t ops
  have hgit : repo.layout.gitDirectory = ⟨".git"⟩ := rfl
  have hroot : t.locate repo.root = .ok [] := FileTree.locate_root t
  have hstray : t.lookup ([] ++ [".git", "objects", "tmp-obj-1"]) = some (.file [7]) := by
    decide +kernel
  have hhead : t.lookup ([] ++ [".git", "HEAD"]) = some (.file []) := by decide +kernel
  obtain ⟨-, hkept, -⟩ := files_stay hgit hroot (List.cons_ne_nil _ _) hstray ops
  obtain ⟨hbecomes, -⟩ := files_stay hgit hroot (List.cons_ne_nil _ _) hhead ops
  exact ⟨hgit, hroot, hstray, hkept ⟨["tmp-obj-1"], rfl⟩, hhead, hbecomes⟩

end Repository

end ObjectStore
