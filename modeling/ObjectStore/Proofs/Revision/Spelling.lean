import ObjectStore.Proofs.Refs.Branches
import ObjectStore.Proofs.Returned
import ObjectStore.Proofs.Revision.Lookup

/-!
# Writing and reading a branch by one spelling

`Command.updateRef` takes the name of a branch with or without `refs/heads/` in front, and so does a
revision. `Repository.resolve_updateRef` says that they agree: a branch that was just pointed at a
revision means what the revision meant, in the spelling that was used to write it, whatever the name
looks like.

`HEAD` is the exception. As a revision it is the commit of the current branch, and for
`Command.updateRef` the name of a branch (`Repository.resolve_updateRef_head`). That branch can be
read in full, as `refs/heads/HEAD`.
-/

namespace ObjectStore.Repository

variable {repo : Repository} {t t' : FileTree} {id : ObjectId} {name revision : String}
variable {draw : UInt32}

/-- Pointing a branch at a revision is pointing it at what the revision means. -/
theorem exists_of_updateRef (hresolve : repo.resolve t revision = .ok id)
    (hsuccess : (Command.updateRef repo draw name revision t).1.error = none)
    (ht : (Command.updateRef repo draw name revision t).2 = t') :
    ∃ branch, Revision.Names name branch ∧ repo.refs.setBranch draw branch id t = (.ok (), t') := by
  have houtcome : (Command.updateRef repo draw name revision t).1
      = ⟨(Command.updateRef repo draw name revision t).1.output, none⟩ := by
    rw [← hsuccess]
  have hok := Command.ofChange_fst_eq_iff.mp houtcome
  obtain ⟨id', hid, hok⟩ := Change.look_bind_fst_eq_ok_iff.mp hok
  obtain rfl := Except.ok.inj (hresolve.symm.trans hid)
  obtain ⟨u, hset, -⟩ := Change.bind_pure_fst_eq_ok_iff.mp hok
  obtain ⟨branch, hbranch, hset⟩ :=
    Change.look_bind_fst_eq_ok_iff.mp (mapError_eq_ok_iff.mp hset)
  have htree : (repo.refs.setBranch draw branch id t).2 = t' := by
    have hrun : (Action.updateRef name revision).run repo draw t = t' := ht
    rw [← hrun, Action.run_eq_apply_effect, Action.effect, hresolve, ok_bind, hbranch]
    rfl
  have hpair : repo.refs.setBranch draw branch id t = (.ok (), t') := Prod.ext hset htree
  refine ⟨branch, ?_, hpair⟩
  rw [Revision.names_iff, ← BranchName.parse?_eq_some_iff]
  exact BranchName.parse?_of_parse hbranch

/-- After a branch is pointed at a revision, its name means what the revision meant. This holds in
every state and for every spelling but `HEAD`, and also for the full name of the branch. -/
theorem resolve_updateRef (hresolve : repo.resolve t revision = .ok id)
    (hsuccess : (Command.updateRef repo draw name revision t).1.error = none)
    (ht : (Command.updateRef repo draw name revision t).2 = t') :
    (name ≠ Layout.headFile → repo.resolve t' name = .ok id) ∧
      repo.resolve t' (Layout.headsFront ++ Revision.withoutFront name) = .ok id := by
  obtain ⟨branch, hnames, hset⟩ := exists_of_updateRef hresolve hsuccess ht
  have hfile := Refs.readFile_of_setBranch hset
  -- Whatever text names the branch and is not `HEAD` means what the branch points at.
  have hmeans : ∀ text, Revision.Names text branch → text ≠ Layout.headFile →
      repo.resolve t' text = .ok id := by
    intro text htext hhead
    have hthere : repo.HasBranch t' text branch :=
      ⟨htext, FileTree.isFile_iff_readFile.mpr ⟨_, hfile⟩⟩
    rw [resolve_of_hasBranch hhead hthere, Refs.resolveBranch_of_readFile hfile]
    rfl
  refine ⟨hmeans name hnames, ?_⟩
  apply hmeans
  · rw [Revision.names_iff] at hnames ⊢
    rw [Revision.withoutFront_append, hnames]
  · intro hhead
    have hfirst : Layout.headsFront.toList.head? = some 'r' := by decide
    have hsame := congrArg (fun s => s.toList.head?) hhead
    rw [String.toList_append, List.head?_append, hfirst, Option.some_or] at hsame
    exact absurd hsame (by decide)

/-- A branch whose name looks like an id, pointed at an id. -/
theorem resolve_updateRef_hex :
    let repo : Repository := ⟨⟨"/"⟩, {}⟩
    let id : ObjectId := ⟨List.replicate 20 0x11, rfl⟩
    let t := repo.run [⟨7, .create⟩] FileTree.empty
    let t' := (Command.updateRef repo 7 "cafe" id.text t).2
    repo.resolve t id.text = .ok id ∧ (Command.updateRef repo 7 "cafe" id.text t).1.error = none ∧
      repo.resolve t' "cafe" = .ok id ∧ repo.resolve t' "refs/heads/cafe" = .ok id := by
  intro repo id t t'
  obtain ⟨hresolve, hsuccess⟩ : repo.resolve t id.text = .ok id ∧
      (Command.updateRef repo 7 "cafe" id.text t).1.error = none := by decide +kernel
  have hname : Layout.headsFront ++ Revision.withoutFront "cafe" = "refs/heads/cafe" := by
    decide +kernel
  obtain ⟨hshort, hfull⟩ := resolve_updateRef hresolve hsuccess rfl
  rw [hname] at hfull
  exact ⟨hresolve, hsuccess, hshort (by decide), hfull⟩

/-- Pointing `HEAD` at an id makes a branch of that name. The current branch stays as it is, without
a commit, and that is what `HEAD` means. -/
theorem resolve_updateRef_head :
    let repo : Repository := ⟨⟨"/"⟩, {}⟩
    let id : ObjectId := ⟨List.replicate 20 0x11, rfl⟩
    let t := repo.run [⟨7, .create⟩] FileTree.empty
    let t' := (Command.updateRef repo 7 "HEAD" id.text t).2
    repo.resolve t id.text = .ok id ∧ (Command.updateRef repo 7 "HEAD" id.text t).1.error = none ∧
      repo.resolve t' "HEAD" = .error .unbornHead ∧ repo.resolve t' "HEAD" ≠ .ok id := by
  intro repo id t t'
  decide +kernel

end ObjectStore.Repository
