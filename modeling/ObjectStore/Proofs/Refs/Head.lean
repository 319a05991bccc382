import ObjectStore.Proofs.Permanence
import ObjectStore.Proofs.Refs.Branches
import ObjectStore.Proofs.Refs.Pointings

/-!
# The current branch

`HEAD` names the current branch, and nothing changes which one that is: the file is written when the
repository is created, over nothing or an empty file, and never again (`Repository.IsAt.head_run`).

* `Refs.readHead_of_readFile`: reading `HEAD` gives the branch it was written for, without the
  blanks at the end of its name. A name may end in a blank beyond ASCII, so that this is another
  branch.
* `Refs.resolveHead_of_readFile`: following `HEAD` is reading the file of its branch.
* `Repository.head_of_create`: the current branch and its commit, after any run since the repository
  was created. The commit is the last one the branch was pointed at, and a branch that was never
  pointed at any has none, as long as no other branch is in its way.
-/

namespace ObjectStore

/-! ## Names that end in a blank -/

namespace BranchName

/-- A name without the blanks at its end. -/
def trimmedName (branch : BranchName) : String :=
  String.ofList (Text.trimBack branch.name.toList)

/-- Whether a name ends in a blank. Those in ASCII stand in no branch name, but others may. -/
def EndsInBlank (branch : BranchName) : Prop :=
  branch.name.toList.getLast?.any Text.isBlank = true

instance (branch : BranchName) : Decidable branch.EndsInBlank :=
  inferInstanceAs (Decidable (_ = true))

variable {branch : BranchName}

/-- Trimming changes the name of a branch exactly if it ends in a blank. -/
theorem trimmedName_eq_iff : branch.trimmedName = branch.name ↔ ¬ branch.EndsInBlank := by
  rw [trimmedName, ← String.toList_inj, String.toList_ofList, Text.trimBack_eq_self_iff,
    EndsInBlank]
  cases branch.name.toList.getLast? <;> simp

/-- The name behind the front is read as the name of a branch. -/
theorem ofSymbolic_append (heads name : String) :
    ofSymbolic heads (heads ++ name) = parse name := by
  rw [ofSymbolic, dropFront?_append]

/-- No forbidden character is in a trimmed name. -/
theorem not_mem_trimmedName {c : Char} (h : isForbidden c = true) :
    c ∉ branch.trimmedName.toList := by
  rw [trimmedName, String.toList_ofList]
  intro hmem
  exact branch.not_mem_name_of_isForbidden h (Text.mem_of_mem_trimBack hmem)

end BranchName

/-! ## Reading `HEAD` -/

namespace Refs

variable {refs : Refs} {t : FileTree} {branch : BranchName} {id : ObjectId}
variable {name : String} {path : Path}

/-- The symbolic ref to a branch, without the blanks at its ends. -/
theorem trim_symbolic (branch : BranchName) : Text.trim (Layout.symbolic branch)
    = "ref: " ++ Layout.headsFront ++ branch.trimmedName :=
  Text.trim_append rfl rfl rfl rfl branch.name

/-- A ref that was trimmed stays as it is. -/
theorem trim_ref (branch : BranchName) : Text.trim (Layout.headsFront ++ branch.trimmedName)
    = Layout.headsFront ++ branch.trimmedName := by
  rw [Text.trim_append rfl rfl rfl rfl, BranchName.trimmedName, String.toList_ofList,
    Text.trimBack_trimBack]

/-- It names the branch, again without the blanks at its end. -/
theorem ofText?_trim_symbolic (branch : BranchName) :
    RefContent.ofText? (Text.trim (Layout.symbolic branch))
      = some (.symbolic (Layout.headsFront ++ branch.trimmedName)) := by
  have hlist : (Text.trim (Layout.symbolic branch)).toList
      = 'r' :: 'e' :: 'f' :: ':' :: ' ' :: 'r' ::
        ("efs/heads/".toList ++ branch.trimmedName.toList) := by
    rw [trim_symbolic, String.toList_append]
    rfl
  have hfeed : '\n' ∉ 'r' :: ("efs/heads/".toList ++ branch.trimmedName.toList) := by
    have hfront : '\n' ∉ 'r' :: "efs/heads/".toList := by decide
    rw [← List.cons_append, List.mem_append, not_or]
    exact ⟨hfront, BranchName.not_mem_trimmedName (by decide)⟩
  have htarget : String.ofList ('r' :: ("efs/heads/".toList ++ branch.trimmedName.toList))
      = Layout.headsFront ++ branch.trimmedName := by
    rw [← List.cons_append, String.ofList_append, String.ofList_toList]
    rfl
  unfold RefContent.ofText?
  rw [hlist]
  simp only [if_neg hfeed, htarget, trim_ref]

/-- A symbolic ref to a branch is read as one to its trimmed name. -/
theorem read_of_symbolic (h : t.readFile path = .ok (Bytes.ofString (Layout.symbolic branch))) :
    read t name path = .ok (some (.symbolic (Layout.headsFront ++ branch.trimmedName))) := by
  rw [read, FileTree.readText_of_readFile h]
  simp only [ofText?_trim_symbolic]

/-- A file that is missing is no ref. -/
theorem read_of_notFound (h : t.readFile path = .error .notFound) :
    read t name path = .ok none := by
  rw [read, FileTree.readText_of_error h]

/-- The current branch is the one that `HEAD` was written for, without the blanks at its end. -/
theorem readHead_of_readFile
    (h : t.readFile refs.headPath = .ok (Bytes.ofString (Layout.symbolic branch))) :
    refs.readHead t = BranchName.parse branch.trimmedName := by
  rw [readHead, read_of_symbolic h, ok_bind]
  simp only [BranchName.ofSymbolic_append]

/-- Following `HEAD` is following its branch, if there are no blanks to lose. -/
theorem resolveHead_of_readFile
    (h : t.readFile refs.headPath = .ok (Bytes.ofString (Layout.symbolic branch)))
    (hblank : ¬ branch.EndsInBlank) :
    refs.resolveHead t
      = refs.follow t 5 (Layout.headsFront ++ branch.name) (refs.branchPath branch) := by
  have htarget : branch.trimmedName = branch.name := BranchName.trimmedName_eq_iff.mpr hblank
  rw [resolveHead, if_pos (FileTree.isPresent_of_readFile h), readLimit, follow,
    read_of_symbolic h, htarget, branchPath_eq]
  rfl

/-- A ref without a file is followed to nothing. -/
theorem follow_of_notFound {reads : Nat} (h : t.readFile path = .error .notFound) :
    refs.follow t (reads + 1) name path = .ok none := by
  rw [follow, read_of_notFound h]
  rfl

end Refs

/-! ## `HEAD` along a run -/

namespace Repository

variable {repo : Repository} {r : Location} {t t₀ t₁ : FileTree} {content : Bytes} {draw : UInt32}

/-- No run changes what `HEAD` holds, unless that is nothing. -/
theorem IsAt.head_run (h : repo.IsAt r t) (ops : List Operation)
    (hfile : t.lookup (headPlace r) = some (.file content)) (hne : content ≠ []) :
    (repo.run ops t).lookup (headPlace r) = some (.file content) :=
  h.file_run_of_ne ops hfile (fun _ => branchPlace_ne_headPlace.symm) fun _ => hne

/-- A `HEAD` that holds something is kept by every run. -/
theorem IsAt.readFile_headPath_run (h : repo.IsAt r t) (ops : List Operation)
    (hfile : t.readFile repo.headPath = .ok content) (hne : content ≠ []) :
    (repo.run ops t).readFile repo.headPath = .ok content := by
  obtain ⟨l, hl, hlookup⟩ := FileTree.readFile_eq_ok_iff.mp hfile
  obtain rfl := h.eq_of_locate_headPath hl
  refine FileTree.readFile_eq_ok_iff.mpr ⟨_, ?_, h.head_run ops hlookup hne⟩
  exact FileTree.locate_of_directories (fun _ => h.directory_run ops) hl

/-- Once a repository is created in a fresh root, `HEAD` is there, and it stays. -/
theorem IsFresh.readFile_headPath (hfresh : repo.IsFresh r t₀)
    (hcreate : repo.create draw t₀ = (.ok (), t₁)) (ops : List Operation) :
    (repo.run ops t₁).readFile repo.headPath
      = .ok (Bytes.ofString (Layout.symbolic repo.layout.defaultBranch)) := by
  obtain ⟨err, t', heq, -⟩ | ⟨t', heq, hgrows, hhead⟩ :=
    hfresh.create_spec draw
  · rw [hcreate] at heq
    cases heq
  obtain ⟨-, rfl⟩ := Prod.mk.inj (hcreate.symm.trans heq)
  have hat : repo.IsAt r t₁ := hfresh.mono fun _ => hgrows.directory
  have hnone : t₀.lookup (headPlace r) = none := hfresh.empty _ (by simp)
  exact hat.readFile_headPath_run ops (hhead (Or.inl hnone)) (ofString_symbolic_ne_nil _)

/-- So is the directory of branches. -/
theorem IsAt.lookup_heads_run (h : repo.IsAt r t) (hcreate : repo.create draw t = (.ok (), t₁))
    (ops : List Operation) : (repo.run ops t₁).lookup (headsPlace r []) = some .directory := by
  have hat : repo.IsAt r t₁ := by
    have := h.run_operation ⟨draw, .create⟩
    rwa [Operation.run, Action.run, hcreate] at this
  obtain ⟨l, hl, hdir⟩ := FileTree.isDirectory_iff.mp (isDirectory_of_create hcreate).2
  obtain ⟨-, rfl, -⟩ := (FileTree.locate_extends_eq_ok_iff hat.root hat.headsPath_extends).mp hl
  exact hat.directory_run ops hdir

/-- The current branch after any run since a repository was created in a fresh root: it is the
default branch, unless that one ends in a blank. Its commit is the one it was last pointed at; if
there is none, it has no commit, as long as no attempt at another branch got in its way. Branches
with the same components are one here, and no path may be too long to be read. -/
theorem head_of_create (hfresh : repo.IsFresh r t₀)
    (hcreate : repo.create draw t₀ = (.ok (), t₁))
    {branch : BranchName} (hdefault : repo.layout.defaultBranch = branch)
    (hnames : ∀ n ∈ branch.components, n.utf8ByteSize ≤ FileTree.nameLimit)
    (hshort : (repo.refs.branchPath branch).text.utf8ByteSize < FileTree.pathLimit)
    (ops : List Operation) (ht : repo.run ops t₁ = t) :
    (repo.refs.readHead t = .ok branch ↔ ¬ branch.EndsInBlank) ∧
      (¬ branch.EndsInBlank →
        (∀ x, Pointing.last (repo.pointings ops t₁) branch.components = some x →
          repo.refs.resolveHead t = .ok (some x)) ∧
        (Pointing.last (repo.pointings ops t₁) branch.components = none →
          (∀ p ∈ repo.pointings ops t₁, ¬ p.Obstructs branch.components) →
          repo.refs.resolveHead t = .ok none)) := by
  have hhead : t.readFile repo.refs.headPath
      = .ok (Bytes.ofString (Layout.symbolic branch)) := by
    rw [← ht, ← hdefault]
    exact hfresh.readFile_headPath hcreate ops
  have hpoints : repo.Points r (repo.pointings ops t₁) t := by
    have := hfresh.points.run (⟨draw, .create⟩ :: ops)
    rwa [run_cons, pointings, Operation.run, Action.run, hcreate, ht] at this
  have hheads : t.lookup (headsPlace r []) = some .directory := by
    rw [← ht]
    exact hfresh.lookup_heads_run hcreate ops
  refine ⟨?_, fun hblank => ⟨fun x hlast => ?_, fun hlast hclear => ?_⟩⟩
  · rw [Refs.readHead_of_readFile hhead, BranchName.parse_eq_ok_iff]
    exact BranchName.trimmedName_eq_iff
  · rw [Refs.resolveHead_of_readFile hhead hblank]
    exact Refs.follow_of_readFile (hpoints.readFile_of_last hshort hnames hlast)
  · rw [Refs.resolveHead_of_readFile hhead hblank]
    exact Refs.follow_of_notFound (hpoints.readFile_eq_notFound hheads hshort hnames hlast hclear)

/-- A default branch beside another one: before it is pointed at an id and after it was pointed at
two of them, with an attempt at no branch in between. -/
theorem head_of_create_sibling :
    let main : BranchName := ⟨"a/b", by decide⟩
    let repo : Repository := ⟨⟨"/"⟩, { defaultBranch := main }⟩
    let one : ObjectId := ⟨List.replicate 20 1, rfl⟩
    let two : ObjectId := ⟨List.replicate 20 2, rfl⟩
    let t₁ := (repo.create 7 FileTree.empty).2
    let before := settings [(1, "a/c", one)]
    let after := settings [(1, "a/c", one), (2, "a/b", one), (2, "a/..", one), (3, "a/b", two)]
    repo.IsFresh [] FileTree.empty ∧ repo.create 7 FileTree.empty = (.ok (), t₁) ∧
      (∀ n ∈ main.components, n.utf8ByteSize ≤ FileTree.nameLimit) ∧
      (repo.refs.branchPath main).text.utf8ByteSize < FileTree.pathLimit ∧
      repo.refs.readHead (repo.run after t₁) = .ok main ∧
      repo.refs.resolveHead (repo.run before t₁) = .ok none ∧
      repo.refs.resolveHead (repo.run after t₁) = .ok (some two) := by
  intro main repo one two t₁ before after
  have hfresh : repo.IsFresh [] FileTree.empty := isFresh_empty rfl
  obtain ⟨hcreated, hnames, hshort, hblank⟩ : (repo.create 7 FileTree.empty).1 = .ok () ∧
      (∀ n ∈ main.components, n.utf8ByteSize ≤ FileTree.nameLimit) ∧
      (repo.refs.branchPath main).text.utf8ByteSize < FileTree.pathLimit ∧
      ¬ main.EndsInBlank := by decide +kernel
  have hcreate : repo.create 7 FileTree.empty = (.ok (), t₁) := Change.eq_of_fst hcreated
  obtain ⟨hnone, hclear⟩ : Pointing.last (repo.pointings before t₁) main.components = none ∧
      ∀ p ∈ repo.pointings before t₁, ¬ p.Obstructs main.components := by decide +kernel
  have hlast : Pointing.last (repo.pointings after t₁) main.components = some two := by
    decide +kernel
  obtain ⟨-, hbefore⟩ := head_of_create hfresh hcreate rfl hnames hshort before rfl
  obtain ⟨hread, hafter⟩ := head_of_create hfresh hcreate rfl hnames hshort after rfl
  exact ⟨hfresh, hcreate, hnames, hshort, hread.mpr hblank, (hbefore hblank).2 hnone hclear,
    (hafter hblank).1 two hlast⟩

/-- A default branch that ends in a no-break space is not the current branch. A default branch that
was never pointed at an id has an error for a commit once the branch above it has a file, and the id
of the branch whose name has a slash more. -/
theorem head_of_create_ne :
    let blank : BranchName := ⟨"x\u00a0", by decide⟩
    let main : BranchName := ⟨"a/b", by decide⟩
    let one : ObjectId := ⟨List.replicate 20 1, rfl⟩
    let blanked : Repository := ⟨⟨"/"⟩, { defaultBranch := blank }⟩
    let repo : Repository := ⟨⟨"/"⟩, { defaultBranch := main }⟩
    let t₁ := (repo.create 7 FileTree.empty).2
    Layout.standard.withDefaultBranch "x\u00a0" = .ok blanked.layout ∧
      Layout.standard.withDefaultBranch "a/b" = .ok repo.layout ∧
      blanked.refs.readHead (blanked.create 7 FileTree.empty).2 = .ok ⟨"x", by decide⟩ ∧
      repo.refs.resolveHead (repo.run (settings [(7, "a", one)]) t₁)
        = .error (.io (repo.refs.branchPath main) .notADirectory) ∧
      repo.refs.resolveHead (repo.run (settings [(7, "a//b", one)]) t₁) = .ok (some one) := by
  decide +kernel

end Repository

end ObjectStore
