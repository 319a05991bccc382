import ObjectStore.Command.Outcome
import ObjectStore.History.Log
import ObjectStore.Revision

/-!
# Commands that show something

`revParse`, `catFile`, `branch` and `log` read a repository and leave it as it is.
-/

namespace ObjectStore

/-- What to show of an object. -/
inductive Aspect where
  | content
  | kind
  | size
  deriving DecidableEq

namespace Command

variable (repo : Repository)

/-- Print the id that a revision means. -/
def revParse (revision : String) : Command := ofResult fun t => do
  return outputLine (← repo.resolve t revision).text

/-- The output that shows an object. Unlike everything else, a blob is not followed by a line
feed. -/
def shown : StoredObject → Bytes
  | .blob content => content
  | object => outputLine object.display

/-- Print the content, the kind or the size of the object that a revision means. -/
def catFile (revision : String) (aspect : Aspect) : Command := ofResult fun t => do
  let id ← repo.resolve t revision
  match aspect with
  | .content => return shown (← (repo.database.parse t id).mapError .store)
  | .kind => return outputLine (← (repo.database.load t id).mapError .store).kind
  | .size =>
    let object ← (repo.database.load t id).mapError .store
    return outputLine (Numeral.decimal object.payload.length)

/-- The line for a branch. The current one is marked. -/
def branchLine (coloured : Bool) (current : Option BranchName) (branch : BranchName) : String :=
  if current = some branch then "* " ++ Colour.green.paint coloured branch.name
  else "  " ++ branch.name

/-- List the branches. A HEAD that names no branch marks none. -/
def branch (coloured : Bool) : Command := ofResult fun t =>
  let current := (repo.refs.readHead t).toOption
  return ((← (repo.refs.branches t).mapError .store).flatMap fun branch =>
    outputLine (branchLine coloured current branch))

/-- Where a log starts: at the given revision, or at the commit of the current branch. -/
def logStart (revision : Option String) (t : FileTree) : Except CommandError ObjectId :=
  match revision with
  | some revision => repo.resolve t revision
  | none =>
    match repo.refs.resolveHead t with
    | .ok (some id) => .ok id
    | .ok none =>
      .error (.noHistory (match repo.refs.readHead t with
        | .ok branch => branch.name
        | .error _ => Layout.headFile))
    | .error err => .error (.store err)

/-- Show the history of a revision. The log ends at the first id whose commit cannot be loaded;
before that come at most as many commits as there are files. -/
def log (revision : Option String) (oneline mainline coloured : Bool) : Command := fun t =>
  match logStart repo revision t with
  | .error err => (⟨[], some err⟩, t)
  | .ok start =>
    let (commits, fault) :=
      Visit.untilFault (repo.visits t mainline start (t.entries.length + 1))
    (⟨Bytes.ofString (Log.render coloured oneline commits), fault.map .store⟩, t)

end Command

end ObjectStore
