import ObjectStore.Command.Record
import ObjectStore.Proofs.CleanFailure

/-!
# Commands that fail

A command that writes to a repository resolves, reads and checks all it is given before it writes,
and prints what it made after that. So if it fails there is nothing to see of it:
`WritingCommand.files_of_error` says that it has printed nothing and that every file is as it was,
with no other beside it, neither an object nor a branch nor a staged file. This holds in any tree,
whatever is in the way there, and for any repository.

Directories that were made for a file stay.
-/

namespace ObjectStore

namespace Command

/-- A command whose change fails cleanly prints nothing and leaves every file if it fails. -/
theorem files_of_ofChange {change : Change CommandError Bytes} (h : change.FailsCleanly)
    {t : FileTree} {err : CommandError} (herr : (ofChange change t).1.error = some err) :
    (ofChange change t).1.output = [] ∧ t.SameFiles (ofChange change t).2 := by
  unfold ofChange at herr ⊢
  rcases hrun : change t with ⟨result, t'⟩
  rw [hrun] at herr
  cases result with
  | ok output => cases herr
  | error fault =>
    have hfiles := h t fault (by rw [hrun])
    rw [hrun] at hfiles
    exact ⟨rfl, hfiles⟩

end Command

/-- The commands that write to a repository, with what they are given. -/
inductive WritingCommand where
  | create
  | hashObject (current : Location) (file : Path) (kind : String) (write : Bool)
  | makeTree (listing : Bytes)
  | commitTree (env : Environment) (tree : String) (parents : List String) (message : String)
  | updateRef (branch revision : String)

namespace WritingCommand

/-- What such a command does, with the number that is drawn for its staged file. -/
def run (repo : Repository) (draw : UInt32) : WritingCommand → Command
  | create => Command.create repo draw
  | hashObject current file kind write => Command.hashObject repo draw current file kind write
  | makeTree listing => Command.makeTree repo draw listing
  | commitTree env tree parents message => Command.commitTree repo draw env tree parents message
  | updateRef branch revision => Command.updateRef repo draw branch revision

/-- A command that fails has printed nothing, and every file is as it was before, whatever number
was drawn. -/
theorem files_of_error (repo : Repository) (draw : UInt32) (command : WritingCommand)
    (t : FileTree) (err : CommandError) (h : (command.run repo draw t).1.error = some err) :
    (command.run repo draw t).1.output = [] ∧ t.SameFiles (command.run repo draw t).2 := by
  cases command with
  | create =>
    apply Command.files_of_ofChange _ h
    apply ((repo.create_failsCleanly draw).mapError _).bind
    exact fun _ t => ⟨_, rfl⟩
  | hashObject current file kind write =>
    apply Command.files_of_ofChange _ h
    apply (Change.leavesFiles_look _).bind_failsCleanly
    intro payload
    split_ifs
    · exact ((repo.database.storeRaw_failsCleanly draw kind payload).mapError _).bind fun id =>
        Change.succeeds_pure _
    · apply (Change.leavesFiles_look _).bind_failsCleanly
      exact fun id => (Change.leavesFiles_pure _).failsCleanly
  | makeTree listing =>
    apply Command.files_of_ofChange _ h
    apply (Change.leavesFiles_look _).bind_failsCleanly
    intro entries
    exact ((repo.buildTree_failsCleanly draw entries).mapError _).bind fun id =>
      Change.succeeds_pure _
  | commitTree env tree parents message =>
    apply Command.files_of_ofChange _ h
    apply (Change.leavesFiles_look _).bind_failsCleanly
    intro commit
    exact ((repo.buildCommit_failsCleanly draw commit).mapError _).bind fun id =>
      Change.succeeds_pure _
  | updateRef branch revision =>
    apply Command.files_of_ofChange _ h
    apply (Change.leavesFiles_look _).bind_failsCleanly
    intro id
    exact ((repo.setBranch_failsCleanly draw _ id).mapError _).bind fun _ =>
      Change.succeeds_pure _

/-- A branch that cannot be made, because a file is where its directory should be. -/
theorem files_of_error_below :
    let repo : Repository := ⟨⟨"/"⟩, {}⟩
    let one : ObjectId := ⟨List.replicate 20 1, rfl⟩
    let t := (repo.setBranch 2 "main" one (repo.create 1 FileTree.empty).2).2
    let command := updateRef "main/next" "main"
    (command.run repo 3 t).1.error
        = some (.store (.io ⟨"/.git/refs/heads/main"⟩ .alreadyExists)) ∧
      (command.run repo 3 t).1.output = [] ∧ t.SameFiles (command.run repo 3 t).2 := by
  intro repo one t command
  have herror : (command.run repo 3 t).1.error
      = some (.store (.io ⟨"/.git/refs/heads/main"⟩ .alreadyExists)) := by
    decide +kernel
  exact ⟨herror, files_of_error repo 3 command t _ herror⟩

end WritingCommand

end ObjectStore
