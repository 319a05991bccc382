import ObjectStore.Command.Record
import ObjectStore.Command.Show
import ObjectStore.Proofs.Writes

/-!
# Operations and runs

What can be done to a repository: the operations of the library that write, and the commands, each
with the number that is drawn for its staged file. A run is a list of operations, one after the
other, each in the tree that the one before it left, whether that one succeeded or failed. So what
is proved of all runs holds whatever numbers are drawn.

Whatever an operation does to the tree, it does through one of three writes. `Action.effect` says
which, given the tree that the operation finds, and `Operation.run_eq_apply_effect` that there is
nothing else to it. `Repository.IsAt.apply_grows` bounds what a write does to the tree, so a
property of runs is proved from that.
-/

namespace ObjectStore

/-- What is done to a repository, with what it is given. -/
inductive Action where
  | create
  | writeBlob (content : Bytes)
  | storeRaw (kind : String) (payload : Bytes)
  | buildTree (entries : List TreeEntry)
  | buildCommit (commit : Commit)
  | setBranch (name : String) (id : ObjectId)
  /-- The command that creates a repository. -/
  | createCommand
  | hashObject (current : Location) (file : Path) (kind : String) (write : Bool)
  | makeTree (listing : Bytes)
  | commitTree (env : Environment) (tree : String) (parents : List String) (message : String)
  | updateRef (branch revision : String)
  | revParse (revision : String)
  | catFile (revision : String) (aspect : Aspect)
  | listBranches (coloured : Bool)
  | log (revision : Option String) (oneline mainline coloured : Bool)

/-- The tree that an action leaves, with the number that is drawn for its staged file. -/
def Action.run (repo : Repository) (draw : UInt32) : Action → FileTree → FileTree
  | create, t => (repo.create draw t).2
  | writeBlob content, t => (repo.writeBlob draw content t).2
  | storeRaw kind payload, t => (repo.database.storeRaw draw kind payload t).2
  | buildTree entries, t => (repo.buildTree draw entries t).2
  | buildCommit commit, t => (repo.buildCommit draw commit t).2
  | setBranch name id, t => (repo.setBranch draw name id t).2
  | createCommand, t => (Command.create repo draw t).2
  | hashObject current file kind write, t =>
    (Command.hashObject repo draw current file kind write t).2
  | makeTree listing, t => (Command.makeTree repo draw listing t).2
  | commitTree env tree parents message, t =>
    (Command.commitTree repo draw env tree parents message t).2
  | updateRef branch revision, t => (Command.updateRef repo draw branch revision t).2
  | revParse revision, t => (Command.revParse repo revision t).2
  | catFile revision aspect, t => (Command.catFile repo revision aspect t).2
  | listBranches coloured, t => (Command.branch repo coloured t).2
  | log revision oneline mainline coloured, t =>
    (Command.log repo revision oneline mainline coloured t).2

/-- An operation on a repository: an action, and the number that is drawn for its staged file if it
writes one. -/
structure Operation where
  draw : UInt32
  action : Action

/-- The tree that an operation leaves. -/
def Operation.run (repo : Repository) (op : Operation) (t : FileTree) : FileTree :=
  op.action.run repo op.draw t

/-- The tree that operations leave, one after the other. -/
def Repository.run (repo : Repository) (ops : List Operation) (t : FileTree) : FileTree :=
  ops.foldl (fun t op => op.run repo t) t

/-! ## Effects -/

/-- A write to a repository. -/
inductive Effect where
  | nothing
  | create
  | store (object : RawObject)
  | point (branch : BranchName) (id : ObjectId)

namespace Effect

/-- The tree that a write leaves, with the number that is drawn for its staged file. -/
def apply (repo : Repository) (draw : UInt32) : Effect → FileTree → FileTree
  | nothing, t => t
  | create, t => (repo.create draw t).2
  | store object, t => (repo.database.storeRaw draw object.kind object.payload t).2
  | point branch id, t => (repo.refs.setBranch draw branch id t).2

/-- Storing a decoded object. -/
def ofObject (object : StoredObject) : Effect := store ⟨object.objectType.kind, object.encode⟩

/-- The write that an operation comes to, if it comes to one. -/
def ofResult {ε : Type} : Except ε Effect → Effect
  | .ok effect => effect
  | .error _ => nothing

end Effect

/-- The write that an action comes to, in the tree it finds. It is the same for every draw. -/
def Action.effect (repo : Repository) (t : FileTree) : Action → Effect
  | create | createCommand => .create
  | writeBlob content => .ofObject (.blob content)
  | storeRaw kind payload => .store ⟨kind, payload⟩
  | buildTree entries => .ofResult ((Tree.build entries).map fun tree => .ofObject (.tree tree))
  | buildCommit commit => .ofObject (.commit commit)
  | setBranch name id => .ofResult ((BranchName.parse name).map fun branch => .point branch id)
  | hashObject current file kind write =>
    if write then
      .ofResult ((t.readFileFrom current file).map fun payload => .store ⟨kind, payload⟩)
    else .nothing
  | makeTree listing => .ofResult do
    let entries ← Tree.entriesOfListing listing
    let tree ← (Tree.build entries).mapError CommandError.store
    return .ofObject (.tree tree)
  | commitTree env tree parents message => .ofResult do
    let tree ← repo.resolve t tree
    let parents ← parents.mapM (repo.resolve t)
    let author ← env.signature .author
    let committer ← env.committer
    return .ofObject (.commit ⟨tree, parents, author, committer, message⟩)
  | updateRef branch revision => .ofResult do
    let id ← repo.resolve t revision
    let branch ← (BranchName.parse (Revision.withoutFront branch)).mapError CommandError.store
    return .point branch id
  | revParse _ | catFile _ _ | listBranches _ | log _ _ _ _ => .nothing

/-! ## Operations are their effects -/

/-- Turning a change into an outcome leaves what it does to the tree. -/
theorem Command.ofChange_snd (x : Change CommandError Bytes) (t : FileTree) :
    (ofChange x t).2 = (x t).2 := by
  unfold ofChange
  split <;> simp_all

/-- A command that only looks leaves the tree as it is. -/
theorem Command.ofResult_snd (result : FileTree → Except CommandError Bytes) (t : FileTree) :
    (ofResult result t).2 = t :=
  ofChange_snd (Change.look result) t

/-- Whatever an action does to the tree is the write that its effect is. -/
theorem Action.run_eq_apply_effect (repo : Repository) (draw : UInt32) (t : FileTree)
    (action : Action) : action.run repo draw t = (action.effect repo t).apply repo draw t := by
  cases action with
  | create => rfl
  | writeBlob content => rfl
  | storeRaw kind payload => rfl
  | buildTree entries =>
    rw [run, effect, Repository.buildTree, Change.look_bind_snd]
    cases Tree.build entries <;> rfl
  | buildCommit commit => rfl
  | setBranch name id =>
    rw [run, effect, Repository.setBranch, Change.look_bind_snd]
    cases BranchName.parse name <;> rfl
  | createCommand =>
    -- What is printed afterwards only looks at the tree.
    rw [run, Command.create, Command.ofChange_snd, Change.bind_snd _ fun _ _ => rfl,
      Change.mapError_snd]
    rfl
  | hashObject current file kind write =>
    rw [run, effect, Command.hashObject, Command.ofChange_snd, Change.look_bind_snd]
    cases t.readFileFrom current file with
    | error fault => cases write <;> rfl
    | ok payload =>
      simp only [mapError_ok]
      cases write with
      | false =>
        simp only [Bool.false_eq_true, if_false, Change.bind_pure_snd, Change.look_apply]
        rfl
      | true =>
        simp only [if_true, Change.bind_pure_snd, Change.mapError_snd]
        rfl
  | makeTree listing =>
    rw [run, effect, Command.makeTree, Command.ofChange_snd, Change.look_bind_snd]
    cases Tree.entriesOfListing listing with
    | error err => rfl
    | ok entries =>
      simp only [Change.bind_pure_snd, Change.mapError_snd, Repository.buildTree,
        Change.look_bind_snd, ok_bind]
      cases Tree.build entries <;> rfl
  | commitTree env tree parents message =>
    rw [run, effect, Command.commitTree, Command.ofChange_snd, Change.look_bind_snd]
    simp only [Change.bind_pure_snd, Change.mapError_snd]
    cases repo.resolve t tree with
    | error err => rfl
    | ok tree =>
      simp only [ok_bind]
      cases parents.mapM (repo.resolve t) with
      | error err => rfl
      | ok parents =>
        simp only [ok_bind]
        cases env.signature .author with
        | error err => rfl
        | ok author =>
          simp only [ok_bind]
          cases env.committer <;> rfl
  | updateRef branch revision =>
    rw [run, effect, Command.updateRef, Command.ofChange_snd, Change.look_bind_snd]
    cases repo.resolve t revision with
    | error err => rfl
    | ok id =>
      simp only [Change.bind_pure_snd, Change.mapError_snd, Repository.setBranch,
        Change.look_bind_snd, ok_bind]
      cases BranchName.parse (Revision.withoutFront branch) <;> rfl
  | revParse revision => rw [run, Command.revParse, Command.ofResult_snd, effect, Effect.apply]
  | catFile revision aspect => rw [run, Command.catFile, Command.ofResult_snd, effect, Effect.apply]
  | listBranches coloured => rw [run, Command.branch, Command.ofResult_snd, effect, Effect.apply]
  | log revision oneline mainline coloured =>
    rw [run, effect, Command.log]
    split <;> rfl

/-- Whatever an operation does to the tree is the write that its effect is. -/
theorem Operation.run_eq_apply_effect (repo : Repository) (t : FileTree) (op : Operation) :
    op.run repo t = (op.action.effect repo t).apply repo op.draw t :=
  op.action.run_eq_apply_effect repo op.draw t

/-! ## What a write does to the tree -/

namespace Effect

/-- The directories that a write may make. -/
def makes (r : Location) : Effect → Location → Prop
  | nothing, _ => False
  | create, l => Repository.IsFrame r l
  | store object, l =>
    l <+: r ++ [".git", "objects", (Canonical.idOf object.kind object.payload).fanOut.1]
  | point branch _, l => l <+: (Repository.branchPlace r branch).dropLast

/-- The file that a write writes, if it succeeds. -/
def writes (repo : Repository) (r : Location) (draw : UInt32) (t : FileTree) :
    Effect → Location → Bytes → Prop
  | nothing, _, _ => False
  | create, l, content => Repository.HeadFile repo r t l content
  | store object, l, content =>
    (repo.database.storeRaw draw object.kind object.payload t).1.toBool = true ∧
      Repository.ObjectFile r t object.kind object.payload l content
  | point branch id, l, content => Repository.BranchFile r branch id l content

end Effect

/-- A write makes no other directories and writes no other file than these. -/
theorem Repository.IsAt.apply_grows {repo : Repository} {r : Location} {t : FileTree}
    (h : repo.IsAt r t) (draw : UInt32) (effect : Effect) :
    FileTree.Grows (effect.makes r) (effect.writes repo r draw t) t
      (effect.apply repo draw t) := by
  cases effect with
  | nothing => exact FileTree.Grows.refl t
  | create =>
    obtain ⟨err, t', heq, hgrows⟩ | ⟨t', heq, hgrows, -⟩ := h.create_spec draw
    · rw [Effect.apply, heq]
      exact hgrows.ofNoFile
    · rw [Effect.apply, heq]
      exact hgrows
  | store object =>
    obtain ⟨err, t', heq, hgrows⟩ | ⟨-, t', heq, hgrows, -⟩ :=
      h.storeRaw_spec draw object.kind object.payload
    · rw [Effect.apply, heq]
      exact hgrows.ofNoFile
    · rw [Effect.apply, heq]
      refine hgrows.mono (fun _ => id) fun l content hfile => ⟨?_, hfile⟩
      rw [heq]
      rfl
  | point branch id =>
    obtain ⟨err, t', heq, hgrows⟩ | ⟨t', heq, hgrows, -⟩ := h.setBranch_spec draw branch id
    · rw [Effect.apply, heq]
      exact hgrows.ofNoFile
    · rw [Effect.apply, heq]
      exact hgrows

/-! ## Runs -/

namespace Repository

variable (repo : Repository) (t : FileTree)

/-- No operations change nothing. -/
@[simp] theorem run_nil : repo.run [] t = t := rfl

/-- A run goes on from where its first operation ended. -/
@[simp] theorem run_cons (op : Operation) (ops : List Operation) :
    repo.run (op :: ops) t = repo.run ops (op.run repo t) := rfl

/-- Runs in a row are one run. -/
theorem run_append (before after : List Operation) :
    repo.run (before ++ after) t = repo.run after (repo.run before t) :=
  List.foldl_append

variable {repo t} {r : Location}

/-- Every directory stays where it is, and so does the root. -/
theorem IsAt.directory_operation (h : repo.IsAt r t) (op : Operation) {l : Location}
    (hl : t.lookup l = some .directory) : (op.run repo t).lookup l = some .directory := by
  rw [op.run_eq_apply_effect]
  exact (h.apply_grows op.draw (op.action.effect repo t)).directory hl

/-- An operation leaves the root where it is. -/
theorem IsAt.run_operation (h : repo.IsAt r t) (op : Operation) : repo.IsAt r (op.run repo t) :=
  h.mono fun _ => h.directory_operation op

/-- Directories stay in every run. -/
theorem IsAt.directory_run (h : repo.IsAt r t) (ops : List Operation) {l : Location}
    (hl : t.lookup l = some .directory) : (repo.run ops t).lookup l = some .directory := by
  induction ops generalizing t with
  | nil => exact hl
  | cons op ops ih => exact ih (h.run_operation op) (h.directory_operation op hl)

/-- The root stays where it is in every run. -/
theorem IsAt.run (h : repo.IsAt r t) (ops : List Operation) : repo.IsAt r (repo.run ops t) :=
  h.mono fun _ => h.directory_run ops

end Repository

end ObjectStore
