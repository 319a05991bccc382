import ObjectStore.Main
import ObjectStore.Proofs.Canonical
import ObjectStore.Proofs.FileTree.Walk
import ObjectStore.Proofs.FileTree.Growth
import ObjectStore.Proofs.FileTree.Staged
import ObjectStore.Proofs.Places
import ObjectStore.Proofs.Writes
import ObjectStore.Proofs.Operation
import ObjectStore.Proofs.Database.Persistence
import ObjectStore.Proofs.Database.Load
import ObjectStore.Proofs.History.Walk
import ObjectStore.Proofs.History.Ancestry
import ObjectStore.Proofs.Timestamp
import ObjectStore.Proofs.Signature
import ObjectStore.Proofs.Commit.RoundTrip
import ObjectStore.Proofs.Commit.Faults
import ObjectStore.Proofs.Database.Typed
import ObjectStore.Proofs.Tree.Order
import ObjectStore.Proofs.Refs.Branches
import ObjectStore.Proofs.Refs.Pointings
import ObjectStore.Proofs.Refs.Head
import ObjectStore.Proofs.Tree.Records
import ObjectStore.Proofs.Tree.RoundTrip
import ObjectStore.Proofs.Tree.Listing
import ObjectStore.Proofs.Command.Listing
import ObjectStore.Proofs.Permanence
import ObjectStore.Proofs.Database.Integrity
import ObjectStore.Proofs.Returned
import ObjectStore.Proofs.Database.Find
import ObjectStore.Proofs.FileTree.Locality
import ObjectStore.Proofs.Refs.Locality
import ObjectStore.Proofs.Tree.Rebuilt
import ObjectStore.Proofs.Refs.LastWrite
import ObjectStore.Proofs.FileTree.Failure
import ObjectStore.Proofs.Refs.Absence
import ObjectStore.Proofs.Refs.Failure
import ObjectStore.Proofs.History.Mainline
import ObjectStore.Proofs.History.Order
import ObjectStore.Proofs.Revision.Lookup
import ObjectStore.Proofs.Revision.Meaning
import ObjectStore.Proofs.Revision.Spelling
import ObjectStore.Proofs.Refs.Following
import ObjectStore.Proofs.Refs.Listing
import ObjectStore.Proofs.Creation
import ObjectStore.Proofs.Command.Failure
import ObjectStore.Proofs.Database.Readers
import ObjectStore.Proofs.Commit.Foreign
import ObjectStore.Proofs.Command.Log
import ObjectStore.Proofs.Database.Storing
import ObjectStore.Proofs.BranchName.Grammar
import ObjectStore.Proofs.Refs.Confinement
import ObjectStore.Proofs.Signature.NormalForm
import ObjectStore.Proofs.ObjectId.Forms
