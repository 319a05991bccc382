import ObjectStore.FileTree.Change
import ObjectStore.FileTree.Fault
import ObjectStore.Numeral
import ObjectStore.Path

/-!
# Following paths

Operations name things in the file tree by paths. A path is followed step by step from the root, or
from a current directory if it is relative; every step is taken from a directory, and the last one
may lead to a location where nothing is.

On top of `FileTree.locate` stand the questions (`isFile`, `isDirectory`, `readFile`, ...), which do
not change the tree, and the changes (`createDirectories`, `createFile`, `rename`, `link`,
`unlink`), which do.
-/

namespace ObjectStore.FileTree

/-! ## Locating -/

/-- The greatest length of a name, in bytes. -/
def nameLimit : Nat := 255

/-- A path of this many bytes is too long. -/
def pathLimit : Nat := 4096

/-- One step from a location. Nothing but a directory can be stepped from. -/
def step (t : FileTree) (loc : Location) (name : String) : Except IoFault Location :=
  match t.lookup loc with
  | none => .error .notFound
  | some (.file _) => .error .notADirectory
  | some .directory =>
    if name = "." then .ok loc
    else if name = ".." then .ok loc.dropLast
    else if nameLimit < name.utf8ByteSize then .error .nameTooLong
    else .ok (loc ++ [name])

/-- The location that a path leads to from a current directory. -/
def locateFrom (t : FileTree) (current : Location) (p : Path) : Except IoFault Location :=
  if p.text.toList.contains '\x00' then .error .nulInPath
  else if p.text.isEmpty then .error .notFound
  else if pathLimit ≤ p.text.utf8ByteSize then .error .nameTooLong
  else p.names.foldlM t.step (if p.isAbsolute then [] else current)

/-- The location that a path leads to from the root. -/
def locate (t : FileTree) (p : Path) : Except IoFault Location := t.locateFrom [] p

/-! ## Questions -/

/-- What stands where a path leads. -/
def nodeFrom (t : FileTree) (current : Location) (p : Path) : Except IoFault Node := do
  match t.lookup (← t.locateFrom current p) with
  | some node => .ok node
  | none => .error .notFound

/-- What stands where a path leads, from the root. -/
def nodeAt (t : FileTree) (p : Path) : Except IoFault Node := t.nodeFrom [] p

/-- Whether something stands there. -/
def isPresent (t : FileTree) (p : Path) : Bool := (t.nodeAt p).toBool

/-- Whether a file stands there. -/
def isFile (t : FileTree) (p : Path) : Bool :=
  match t.nodeAt p with
  | .ok (.file _) => true
  | _ => false

/-- Whether a directory stands there. -/
def isDirectory (t : FileTree) (p : Path) : Bool :=
  match t.nodeAt p with
  | .ok .directory => true
  | _ => false

/-- The names in the directory that a path leads to; none if it is not a directory. -/
def namesAt (t : FileTree) (p : Path) : List String :=
  match t.locate p with
  | .ok loc => if t.lookup loc = some .directory then t.names loc else []
  | .error _ => []

/-- The content of a file, for a path taken from a current directory. -/
def readFileFrom (t : FileTree) (current : Location) (p : Path) : Except IoFault Bytes := do
  match ← t.nodeFrom current p with
  | .file content => .ok content
  | .directory => .error .isADirectory

/-- The content of a file. -/
def readFile (t : FileTree) (p : Path) : Except IoFault Bytes := t.readFileFrom [] p

/-- Whether a file without content stands there. -/
def isEmptyFile (t : FileTree) (p : Path) : Bool :=
  match t.readFile p with
  | .ok [] => true
  | _ => false

/-- The content of a file that is text. -/
def readText (t : FileTree) (p : Path) : Except IoFault String := do
  match Bytes.toText? (← t.readFile p) with
  | some text => .ok text
  | none => .error .notUtf8

/-- The absolute path to a location. -/
def pathTo (loc : Location) : Path :=
  if loc.isEmpty then ⟨"/"⟩ else ⟨String.join (loc.map fun name => "/" ++ name)⟩

/-- The absolute path, without detours, to what stands where a path leads. -/
def realPath? (t : FileTree) (p : Path) : Option Path :=
  match t.locate p with
  | .ok loc => (t.lookup loc).map fun _ => pathTo loc
  | .error _ => none

/-! ## Changes -/

/-- Make a directory. -/
def createDirectory (p : Path) : Change IoFault Unit := fun t =>
  match t.locate p with
  | .error fault => (.error fault, t)
  | .ok loc =>
    match t.lookup loc with
    | some _ => (.error .alreadyExists, t)
    | none => (.ok (), t.put loc .directory)

/-- Make a directory, and before it the one it lies in if that is not there, going out at most so
many steps. A directory that is there already counts as made. -/
def createWithin : Nat → Path → Change IoFault Unit
  | 0, _ => Change.fail .notFound
  | steps + 1, p => fun t =>
    match createDirectory p t with
    | (.ok (), t) => (.ok (), t)
    | (.error .notFound, t) =>
      match (p.parent?.elim (Change.fail .notFound) (createWithin steps)) t with
      | (.error fault, t) => (.error fault, t)
      | (.ok (), t) =>
        match createDirectory p t with
        | (.ok (), t) => (.ok (), t)
        | (.error fault, t) => if t.isDirectory p then (.ok (), t) else (.error fault, t)
    | (.error fault, t) => if t.isDirectory p then (.ok (), t) else (.error fault, t)

/-- Make a directory and those it lies in. Every step out makes the path shorter. -/
def createDirectories (p : Path) : Change IoFault Unit := createWithin (p.text.length + 1) p

/-- Make a file that was not there. -/
def createFile (p : Path) (content : Bytes) : Change IoFault Unit := fun t =>
  match t.locate p with
  | .error fault => (.error fault, t)
  | .ok loc =>
    match t.lookup loc with
    | some _ => (.error .alreadyExists, t)
    | none => (.ok (), t.put loc (.file content))

/-- Give a file a second name, one that nothing has. -/
def link (source target : Path) : Change IoFault Unit := fun t =>
  match t.readFile source with
  | .error fault => (.error fault, t)
  | .ok content => createFile target content t

/-- Remove a file. Nothing happens if there is none. -/
def unlink (p : Path) (t : FileTree) : FileTree :=
  match t.locate p with
  | .ok loc => t.erase loc
  | .error _ => t

/-- Give a file another name, replacing the file that has that name. -/
def rename (source target : Path) : Change IoFault Unit := fun t =>
  match t.readFile source, t.locate target with
  | .error fault, _ => (.error fault, t)
  | .ok _, .error fault => (.error fault, t)
  | .ok content, .ok loc =>
    if t.lookup loc = some .directory then (.error .isADirectory, t)
    else (.ok (), (unlink source t).put loc (.file content))

/-- Write a file, making the directories it needs and replacing what it held. -/
def writeFile (p : Path) (content : Bytes) : Change IoFault Unit := do
  match p.parent? with
  | some directory => createDirectories directory
  | none => pure ()
  fun t =>
    match t.locate p with
    | .error fault => (.error fault, t)
    | .ok loc =>
      if t.lookup loc = some .directory then (.error .isADirectory, t)
      else (.ok (), t.put loc (.file content))

/-- Remove a file, or a directory with everything in it. -/
def removeAll (p : Path) : Change IoFault Unit := fun t =>
  match t.locate p with
  | .error fault => (.error fault, t)
  | .ok loc =>
    match t.lookup loc with
    | none => (.error .notFound, t)
    | some _ => (.ok (), t.prune loc)

end ObjectStore.FileTree
