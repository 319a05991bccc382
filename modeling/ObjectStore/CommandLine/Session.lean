import ObjectStore.CommandLine.Invocation

/-!
# Running the program

A run of the program takes its arguments and what it finds around it, changes the file tree, and
ends with an exit code and what it wrote to its two outputs.
-/

namespace ObjectStore.CommandLine

/-- What a run of the program finds around it. -/
structure Session where
  environment : Environment
  /-- The location of the current directory. -/
  current : Location
  input : Bytes
  /-- Whether colours are wanted. -/
  coloured : Bool
  /-- The number that is drawn for a staged file. -/
  draw : UInt32

/-- How a run of the program ends. -/
structure Ending where
  code : Nat
  output : Bytes
  errors : String

/-- The variable that may name another default branch. -/
def defaultBranchVariable : String := "BIT_DEFAULT_BRANCH"

/-- The name of the program with its version. -/
def versionLine : String := "bitstore 0.1.0"

/-- How the program is used. -/
def usage : String :=
  "Usage: bitstore <COMMAND> [ARGUMENTS]\n\nCommands: "
    ++ String.intercalate ", " (Name.all.map Name.word) ++ "\n"

/-! ## Errors -/

/-- A text whose lines after the first one are indented. -/
def hang (indent text : String) : String :=
  String.intercalate ("\n" ++ indent) (text.splitOn "\n")

/-- The causes of an error, numbered if there are several. -/
def causeLines : List String → List String
  | [cause] => ["    " ++ hang "    " cause]
  | causes => causes.zipIdx.map fun (cause, n) =>
    "    " ++ Numeral.decimal n ++ ": " ++ hang "       " cause

/-- What is written about an error. -/
def report (err : CommandError) : String :=
  match err.chain with
  | [] => ""
  | [text] => "Error: " ++ text ++ "\n"
  | text :: causes =>
    "Error: " ++ text ++ "\n\nCaused by:\n" ++ String.intercalate "\n" (causeLines causes) ++ "\n"

/-! ## Running -/

/-- The command of an invocation, given the layout that the environment asks for. -/
def Invocation.command (session : Session) (layout : Layout) :
    Invocation → Except StoreError Command
  | create path chosen => do
    let layout ← match chosen with
      | some name => layout.withDefaultBranch name
      | none => .ok layout
    let here := FileTree.pathTo session.current
    return Command.create ⟨path.elim here here.join, layout⟩ session.draw
  | hashObject write kind file =>
    .ok (Command.hashObject (repo session layout) session.draw session.current file kind write)
  | catFile aspect object => .ok (Command.catFile (repo session layout) object aspect)
  | makeTree => .ok (Command.makeTree (repo session layout) session.draw session.input)
  | commitTree tree parents message =>
    .ok (Command.commitTree (repo session layout) session.draw session.environment tree parents
      message)
  | updateRef ref revision =>
    .ok (Command.updateRef (repo session layout) session.draw ref revision)
  | revParse revision => .ok (Command.revParse (repo session layout) revision)
  | branch => .ok (Command.branch (repo session layout) session.coloured)
  | log revision oneline mainline =>
    .ok (Command.log (repo session layout) revision oneline mainline session.coloured)
where
  /-- The repository in the current directory. -/
  repo (session : Session) (layout : Layout) : Repository :=
    ⟨FileTree.pathTo session.current, layout⟩

/-- The command of an invocation, with the layout that the environment asks for. -/
def Session.command (session : Session) (invocation : Invocation) : Except StoreError Command := do
  let layout ← Layout.ofVariable (session.environment.get? defaultBranchVariable)
  invocation.command session layout

/-- The ending of a run whose command had the given outcome. -/
def Ending.ofOutcome (outcome : Outcome) : Ending :=
  match outcome.error with
  | none => ⟨0, outcome.output, ""⟩
  | some err => ⟨1, outcome.output, report err⟩

/-- Run the program. -/
def run (session : Session) (args : List String) (t : FileTree) : Ending × FileTree :=
  match Request.ofArguments args with
  | .error _ => (⟨2, [], usage⟩, t)
  | .ok .help => (⟨0, Bytes.ofString usage, ""⟩, t)
  | .ok .version => (⟨0, Command.outputLine versionLine, ""⟩, t)
  | .ok (.run invocation) =>
    match session.command invocation with
    | .error err => (⟨1, [], report (.store err)⟩, t)
    | .ok command =>
      let (outcome, t) := command t
      (Ending.ofOutcome outcome, t)

end ObjectStore.CommandLine
