import ObjectStore.FileTree.Basic

/-!
# Edits

What has to be done to one file tree so that it becomes another one. Nothing is done where the two
agree, so a directory that is kept in step with file trees is only touched where something changed.
-/

namespace ObjectStore

/-- One thing to do to a file tree. -/
inductive Edit where
  | remove (loc : Location) (wasDirectory : Bool)
  | makeDirectory (loc : Location)
  | writeFile (loc : Location) (content : Bytes)

/-- Do it. -/
def Edit.apply (t : FileTree) : Edit → FileTree
  | remove loc _ => t.prune loc
  | makeDirectory loc => t.put loc .directory
  | writeFile loc content => t.put loc (.file content)

namespace FileTree

/-- The edits that turn one file tree into another: first everything goes that is not in the other
one as the same sort of node, the deepest first, and then directories come before what they hold. -/
def editsTo (old new : FileTree) : List Edit :=
  let gone := (old.listing []).reverse.filterMap fun (loc, node) =>
    match node, new.lookup loc with
    | .directory, some .directory => none
    | .file _, some (.file _) => none
    | .directory, _ => some (Edit.remove loc true)
    | .file _, _ => some (Edit.remove loc false)
  let come := (new.listing []).filterMap fun (loc, node) =>
    if old.lookup loc = some node then none
    else match node with
      | .directory => some (Edit.makeDirectory loc)
      | .file content => some (Edit.writeFile loc content)
  gone ++ come

end FileTree

end ObjectStore
