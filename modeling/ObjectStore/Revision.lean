import ObjectStore.Command.Error
import ObjectStore.Repository

/-!
# Revisions

A revision is a text that says which object is meant: `HEAD`, the name of a branch with or without
`refs/heads/` in front, a full id, or the first digits of one. Branches come before ids, so a branch
named `cafe` hides the objects whose id starts that way.
-/

namespace ObjectStore

namespace Revision

/-- Fewer digits than this do not abbreviate an id. -/
def digitsNeeded : Nat := 4

/-- A text without the front that the refs of all branches have, if it has that. -/
def withoutFront (text : String) : String :=
  (BranchName.dropFront? Layout.headsFront text).getD text

/-- Whether a text may abbreviate an id. -/
def isAbbreviation (text : String) : Bool :=
  digitsNeeded ≤ text.toList.length && text.toList.all fun c => (Bytes.hexValue? c).isSome

end Revision

namespace Repository

/-- The branch that a revision names: one whose file is there. -/
def branchNamed? (repo : Repository) (t : FileTree) (revision : String) : Option BranchName :=
  (BranchName.parse? (Revision.withoutFront revision)).filter fun branch =>
    t.isFile (repo.refs.branchPath branch)

/-- The id whose first digits are given. -/
def resolveDigits (repo : Repository) (t : FileTree) (revision : String) :
    Except CommandError ObjectId :=
  if Revision.isAbbreviation revision then
    match repo.database.find t revision with
    | [] => .error (.unknownRevision revision)
    | [id] => .ok id
    | candidates => .error (.ambiguous revision candidates)
  else .error (.unknownRevision revision)

/-- The id that a revision means. -/
def resolve (repo : Repository) (t : FileTree) (revision : String) :
    Except CommandError ObjectId :=
  if revision = Layout.headFile then
    match repo.refs.resolveHead t with
    | .ok (some id) => .ok id
    | .ok none => .error .unbornHead
    | .error err => .error (.store err)
  else match repo.branchNamed? t revision with
    | some branch => (repo.refs.resolveBranch t branch).mapError .store
    | none =>
      match ObjectId.parse? revision with
      | some id => .ok id
      | none => repo.resolveDigits t revision

end Repository

end ObjectStore
