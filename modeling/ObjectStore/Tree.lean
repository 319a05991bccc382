import ObjectStore.Canonical

/-!
# Trees

A tree is a list of named entries. Built trees are in canonical order: by the bytes of the name,
a directory's name compared as if it ended in a slash, so that every list of the same entries
gives the same tree. A tree that was read keeps the order it was found in.

The payload of a tree is a row of records, one per entry: the mode in octal, a space, the name, a
NUL and the twenty bytes of the id. `Tree.encode` writes it, `Tree.decode` reads it.
-/

namespace ObjectStore

/-- A named entry of a tree. -/
structure TreeEntry where
  mode : EntryMode
  name : String
  id : ObjectId
  deriving DecidableEq

namespace TreeEntry

/-- A name that is a single segment of a path. -/
def hasValidName (entry : TreeEntry) : Bool :=
  entry.name != "" && entry.name != "." && entry.name != ".."
    && entry.name.toList.all fun c => c != '/' && c != '\x00'

/-- The bytes by which entries are ordered. -/
def sortKey (entry : TreeEntry) : Bytes :=
  if entry.mode.isTree then Bytes.ofString entry.name ++ [0x2F] else Bytes.ofString entry.name

/-- Entries in canonical order. -/
def le (a b : TreeEntry) : Bool := decide (a.sortKey ≤ b.sortKey)

/-- The record of an entry. -/
def record (entry : TreeEntry) : Bytes :=
  Bytes.ofString (String.ofList entry.mode.octal) ++ [0x20] ++ Bytes.ofString entry.name ++ [0]
    ++ entry.id.raw

/-- The line that lists an entry. -/
def line (entry : TreeEntry) : String :=
  String.ofList entry.mode.paddedOctal ++ " " ++ entry.mode.objectType.kind ++ " " ++ entry.id.text
    ++ "\t" ++ entry.name

end TreeEntry

/-- A directory listing. -/
structure Tree where
  entries : List TreeEntry
  deriving DecidableEq

namespace Tree

/-! ## Building -/

/-- The first entry whose name is no path segment, or was used by an entry before it. -/
def firstFault (seen : List String) : List TreeEntry → Option StoreError
  | [] => none
  | entry :: rest =>
    if !entry.hasValidName then some (.invalidEntryName entry.name)
    else if entry.name ∈ seen then some (.duplicateEntry entry.name)
    else firstFault (entry.name :: seen) rest

/-- The tree of the given entries, which may come in any order. -/
def build (entries : List TreeEntry) : Except StoreError Tree :=
  match firstFault [] entries with
  | some err => .error err
  | none => .ok ⟨entries.mergeSort TreeEntry.le⟩

/-- The entry with a given name. -/
def get? (tree : Tree) (name : String) : Option TreeEntry :=
  tree.entries.find? fun entry => entry.name == name

/-! ## The payload -/

/-- The payload of a tree. -/
def encode (tree : Tree) : Bytes := tree.entries.flatMap TreeEntry.record

/-- Read one record; the second part is what follows it. -/
def decodeRecord (b : Bytes) : Except TreeFault (TreeEntry × Bytes) := do
  let (modeBytes, afterMode) ← (cutAt? 0x20 b).elim (.error .endInMode) .ok
  let modeText ← (Bytes.toText? modeBytes).elim (.error .modeNotUtf8) .ok
  let mode ← (EntryMode.ofOctal modeText).mapError .badMode
  let (nameBytes, afterName) ← (cutAt? 0 afterMode).elim (.error .endInName) .ok
  let name ← (Bytes.toText? nameBytes).elim (.error .nameNotUtf8) .ok
  let (id, rest) ← (ObjectId.takeRaw afterName).mapError .badId
  return (⟨mode, name, id⟩, rest)

/-- Read records until nothing is left, at most as many as the fuel allows. Every record is longer
than one byte, so the length of the payload is fuel enough. -/
def decodeRecords : Nat → Bytes → Except TreeFault (List TreeEntry)
  | _, [] => .ok []
  | 0, _ :: _ => .error .endInMode
  | fuel + 1, b => do
    let (entry, rest) ← decodeRecord b
    let entries ← decodeRecords fuel rest
    return entry :: entries

/-- Read a tree from its payload. -/
def decode (payload : Bytes) : Except StoreError Tree :=
  match decodeRecords payload.length payload with
  | .ok entries => .ok ⟨entries⟩
  | .error fault => .error (.malformed (.tree fault))

/-! ## Showing -/

/-- The listing of a tree, one line per entry, without a line feed at the end. -/
def listing (tree : Tree) : String := String.intercalate "\n" (tree.entries.map TreeEntry.line)

/-- The id of a tree. -/
def id (tree : Tree) : ObjectId := Canonical.idOf ObjectType.tree.kind tree.encode

end Tree

end ObjectStore
