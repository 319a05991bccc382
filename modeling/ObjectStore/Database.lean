import ObjectStore.FileTree.Staging
import ObjectStore.StoredObject
import ObjectStore.Zlib.Stream

/-!
# The object database

Objects are kept below one directory, each in a file of its own that is named by the object's id
and holds the compressed canonical form.

* `Database.storeRaw` writes an object, unless it is there already.
* `Database.load` reads one. It trusts nothing: the file must inflate to a canonical form whose
  hash is the id that was asked for.
* `Database.parse`, `Database.typeOf`, `Database.parseBlob`, `Database.parseTree` and
  `Database.parseCommit` decode what `load` returns.
* `Database.find` lists the ids that start with given digits.
-/

namespace ObjectStore

/-- A database: the directory its objects are kept below. -/
structure Database where
  objects : Path
  deriving DecidableEq

namespace Database

/-- The directory of an object's file. -/
def fanPath (db : Database) (id : ObjectId) : Path := db.objects.join ⟨id.fanOut.1⟩

/-- The file of an object. -/
def objectPath (db : Database) (id : ObjectId) : Path :=
  db.objects.join ⟨id.fanOut.1 ++ "/" ++ id.fanOut.2⟩

/-- Whether the database has an object. -/
def contains (db : Database) (t : FileTree) (id : ObjectId) : Bool := t.isFile (db.objectPath id)

/-! ## Writing -/

/-- Store an object of any valid kind; the result is its id. An object that is there already is not
written again. -/
def storeRaw (db : Database) (draw : UInt32) (kind : String) (payload : Bytes) :
    Change StoreError ObjectId := do
  let id ← Change.look fun _ => Canonical.hash kind payload
  let present ← Change.look fun t => .ok (t.isPresent (db.objectPath id))
  if present then return id
  FileTree.needDirectory (db.fanPath id)
  FileTree.replaceFile draw (db.fanPath id) "tmp-obj" (db.objectPath id)
    (Zlib.compress (Canonical.form kind payload))
  return id

/-- Store a decoded object; the result is its id. -/
def store (db : Database) (draw : UInt32) (object : StoredObject) : Change StoreError ObjectId :=
  db.storeRaw draw object.objectType.kind object.encode

/-! ## Reading -/

/-- The object in a file that should hold the object with the given id. -/
def openStream (id : ObjectId) (stream : Bytes) : Except Damage RawObject := do
  let canonical ← (Zlib.inflate stream).mapError .inflate
  let object ← (Canonical.read canonical).mapError .header
  let actual := ObjectId.ofCanonical canonical
  if actual = id then return object else .error (.digest actual)

/-- The content of an object's file. -/
def objectFile (db : Database) (t : FileTree) (id : ObjectId) : Except IoFault Bytes :=
  t.readFile (db.objectPath id)

/-- Read an object. -/
def load (db : Database) (t : FileTree) (id : ObjectId) : Except StoreError RawObject :=
  match db.objectFile t id with
  | .error .notFound => .error (.objectNotFound id)
  | .error fault => .error (.io (db.objectPath id) fault)
  | .ok stream => (openStream id stream).mapError (.corruptObject id)

/-- Read an object of a known type, without decoding it. -/
def loadTyped (db : Database) (t : FileTree) (id : ObjectId) :
    Except StoreError (ObjectType × Bytes) := do
  let object ← db.load t id
  let type ← object.objectType
  return (type, object.payload)

/-- The type of an object. -/
def typeOf (db : Database) (t : FileTree) (id : ObjectId) : Except StoreError ObjectType :=
  (db.loadTyped t id).map Prod.fst

/-- Read and decode an object of any known type. -/
def parse (db : Database) (t : FileTree) (id : ObjectId) : Except StoreError StoredObject := do
  let (type, payload) ← db.loadTyped t id
  (StoredObject.decode type payload).mapError (StoreError.blame id)

/-- Read and decode an object that should have the given type. -/
def parseAs {α : Type} (expected : ObjectType) (decode : Bytes → Except StoreError α)
    (db : Database) (t : FileTree) (id : ObjectId) : Except StoreError α := do
  let (type, payload) ← db.loadTyped t id
  if type = expected then (decode payload).mapError (StoreError.blame id)
  else .error (.unexpectedObjectType id expected type)

/-- Read a blob. -/
def parseBlob : Database → FileTree → ObjectId → Except StoreError Bytes := parseAs .blob .ok

/-- Read a tree. -/
def parseTree : Database → FileTree → ObjectId → Except StoreError Tree := parseAs .tree Tree.decode

/-- Read a commit. -/
def parseCommit : Database → FileTree → ObjectId → Except StoreError Commit :=
  parseAs .commit Commit.decode

/-! ## Finding -/

/-- The names of all directories that object files may lie in. -/
def fanNames : List (List Char) := (List.range 256).map fun n => Bytes.hexPair (UInt8.ofNat n)

/-- The ids in one such directory that start with the given digits. Files with other names are
skipped. -/
def findIn (db : Database) (t : FileTree) (digits fan : List Char) : List ObjectId :=
  (t.namesAt (db.objects.join ⟨String.ofList fan⟩)).filterMap fun name =>
    let full := fan ++ name.toList
    if digits.isPrefixOf full then ObjectId.parse? (String.ofList full) else none

/-- The ids of all objects that start with the given digits of either case, in order. Nothing is
found for a text that holds something else. -/
def find (db : Database) (t : FileTree) (text : String) : List ObjectId :=
  let digits := text.toList.map Char.toLower
  if digits.all fun c => (Bytes.hexValue? c).isSome then
    let fans := if 2 ≤ digits.length then [digits.take 2] else fanNames
    (fans.flatMap (db.findIn t digits)).mergeSort ObjectId.le
  else []

end Database

end ObjectStore
