import ObjectStore.Commit
import ObjectStore.Tree

/-!
# Decoded objects

An object of one of the three known types, decoded. `StoredObject.decode` reads a payload as a
given type, `StoredObject.encode` gives it back, and `StoredObject.display` shows it.
-/

namespace ObjectStore

/-- A decoded object. -/
inductive StoredObject where
  | blob (content : Bytes)
  | tree (tree : Tree)
  | commit (commit : Commit)
  deriving DecidableEq

namespace StoredObject

/-- The type of an object. -/
def objectType : StoredObject → ObjectType
  | blob _ => .blob
  | tree _ => .tree
  | commit _ => .commit

/-- The payload of an object. -/
def encode : StoredObject → Bytes
  | blob content => content
  | tree t => t.encode
  | commit c => c.encode

/-- Read a payload as an object of the given type. -/
def decode (t : ObjectType) (payload : Bytes) : Except StoreError StoredObject :=
  match t with
  | .blob => .ok (blob payload)
  | .tree => (Tree.decode payload).map tree
  | .commit => (Commit.decode payload).map commit

/-- The text that shows an object. A blob that is not text shows U+FFFD where it is not. -/
def display : StoredObject → String
  | blob content => Bytes.lossy content
  | tree t => t.listing
  | commit c => c.text

/-- The id of an object. -/
def id (object : StoredObject) : ObjectId :=
  Canonical.idOf object.objectType.kind object.encode

end StoredObject

end ObjectStore
