import ObjectStore.Command.Error
import ObjectStore.FileTree.Change

/-!
# What commands do

A command changes the file tree, writes output, and may fail. `Outcome` is what can be seen of it:
the output, which a command that fails may have begun to write, and the error.
-/

namespace ObjectStore

/-- What a command wrote, and why it failed if it did. -/
structure Outcome where
  output : Bytes
  error : Option CommandError

/-- A command, as a change of the file tree. -/
abbrev Command := FileTree → Outcome × FileTree

namespace Command

/-- A command that writes its output when everything else is done. -/
def ofChange (change : Change CommandError Bytes) : Command := fun t =>
  match change t with
  | (.ok output, t) => (⟨output, none⟩, t)
  | (.error err, t) => (⟨[], some err⟩, t)

/-- A command that changes nothing, and writes its output when everything else is done. -/
def ofResult (result : FileTree → Except CommandError Bytes) : Command :=
  ofChange (Change.look result)

/-- A line of output. -/
def outputLine (line : String) : Bytes := Bytes.ofString (line ++ "\n")

end Command

end ObjectStore
