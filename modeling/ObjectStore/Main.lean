import ObjectStore.CommandLine.Session
import ObjectStore.FileTree.Edit
import Std.Time.Zoned

/-!
# The program

The outermost layer reads the part of the disk that a run of the program needs into a file tree, runs
the program on it, and brings the disk in step with the file tree it gets back. Files outside the git
directory are read only if the arguments name them.
-/

namespace ObjectStore.Main

/-! ## Reading the disk -/

/-- The path of a location, as text. -/
def diskPath (loc : Location) : String := (FileTree.pathTo loc).text

/-- Read everything below a directory. -/
partial def readBelow (loc : Location) (t : FileTree) : IO FileTree := do
  let directory := (← IO.currentDir) / diskPath loc
  let mut t := t
  for entry in ← directory.readDir do
    let inner := loc ++ [entry.fileName]
    if ← entry.path.isDir then
      t ← readBelow inner (t.put inner .directory)
    else if ← entry.path.pathExists then
      t := t.put inner (.file (← IO.FS.readBinFile entry.path).data.toList)
  return t

/-- Read what a path leads through, up to the first step that is not there. If the path leads to a
directory, everything below it is read too when `deep` is set. -/
def readPath (deep : Bool) : List String → Location → FileTree → IO FileTree
  | [], loc, t => if deep then readBelow loc t else return t
  | "." :: rest, loc, t => readPath deep rest loc t
  | ".." :: rest, loc, t => readPath deep rest loc.dropLast t
  | name :: rest, loc, t => do
    let inner := loc ++ [name]
    let path := (← IO.currentDir) / diskPath inner
    if ← path.isDir then readPath deep rest inner (t.put inner .directory)
    else if ← path.pathExists then
      return t.put inner (.file (← IO.FS.readBinFile path).data.toList)
    else return t

/-- The paths whose files an invocation reads or writes, and whether what is below them matters. -/
def places (here : Path) : CommandLine.Invocation → List (Path × Bool)
  | .create path _ => [(Layout.standard.gitPath (path.elim here here.join), true)]
  | .hashObject _ _ file => [(here.join file, false), (Layout.standard.gitPath here, true)]
  | _ => [(Layout.standard.gitPath here, true)]

/-- Read the part of the disk that an invocation needs. -/
def readDisk (here : Path) (invocation : CommandLine.Invocation) : IO FileTree := do
  let start ← readPath false here.names [] .empty
  (places here invocation).foldlM (fun t (path, deep) => readPath deep path.names [] t) start

/-! ## Writing the disk -/

/-- Do an edit on the disk. A file gets its name when it is complete. -/
def perform : Edit → IO Unit
  | .remove loc true => IO.FS.removeDir (diskPath loc)
  | .remove loc false => IO.FS.removeFile (diskPath loc)
  | .makeDirectory loc => IO.FS.createDir (diskPath loc)
  | .writeFile loc content => do
    let incomplete := diskPath loc ++ ".incomplete"
    IO.FS.writeBinFile incomplete ⟨content.toArray⟩
    IO.FS.rename incomplete (diskPath loc)

/-! ## The surroundings -/

/-- The variables that the program looks at. -/
def variableNames : List String :=
  CommandLine.defaultBranchVariable
    :: [Role.author, Role.committer].flatMap fun role =>
      ["_NAME", "_EMAIL", "_DATE"].map (role.front ++ ·)

/-- The variables that are set. -/
def readVariables : IO (List (String × String)) :=
  variableNames.filterMapM fun name => do
    return (← IO.getEnv name).map fun value => (name, value)

/-- The current moment. -/
def readClock : IO Timestamp := do
  let now ← Std.Time.DateTime.now
  match Timestamp.make? now.timestamp.val.second.val (now.timezone.offset.second.val / 60) false with
  | some t => return t
  | none => throw (IO.userError "the clock is out of range")

/-- Draw a number for a staged file. -/
def drawNumber : IO UInt32 := do
  return (← IO.getRandomBytes 4).data.foldl (fun n byte => n * 256 + byte.toUInt32) 0

/-- Everything on standard input. -/
partial def readInput (input : IO.FS.Stream) (before : ByteArray) : IO ByteArray := do
  let more ← input.read 65536
  if more.isEmpty then return before else readInput input (before ++ more)

/-- Run the program on the disk. -/
def runOnDisk (args : List String) : IO CommandLine.Ending := do
  let here : Path := ⟨(← IO.currentDir).toString⟩
  let stdout ← IO.getStdout
  let request := CommandLine.Request.ofArguments args
  let input ← match request with
    | .ok (.run .makeTree) => readInput (← IO.getStdin) .empty
    | _ => pure .empty
  let session : CommandLine.Session :=
    ⟨⟨← readVariables, ← readClock⟩, here.names, input.data.toList, ← stdout.isTty,
      ← drawNumber⟩
  let old ← match request with
    | .ok (.run invocation) => readDisk here invocation
    | _ => pure .empty
  let (ending, new) := CommandLine.run session args old
  for edit in old.editsTo new do perform edit
  return ending

end ObjectStore.Main

/-- Run the program, write its output, and hand on its exit code. -/
def main (args : List String) : IO UInt32 := do
  let ending ← ObjectStore.Main.runOnDisk args
  (← IO.getStdout).write ⟨ending.output.toArray⟩
  (← IO.getStdout).flush
  (← IO.getStderr).putStr ending.errors
  return UInt32.ofNat ending.code
