import ObjectStore.Command.Record
import ObjectStore.Command.Show
import ObjectStore.CommandLine.Arguments

/-!
# Invocations

An invocation is a command with its arguments, read and named. `Request.ofArguments` reads it from
the arguments of the program; it may also find that help or the version is wanted, or that the
arguments do not fit.
-/

namespace ObjectStore.CommandLine

/-- A command with its arguments. -/
inductive Invocation where
  | create (path : Option Path) (branch : Option String)
  | hashObject (write : Bool) (kind : String) (file : Path)
  | catFile (aspect : Aspect) (object : String)
  | makeTree
  | commitTree (tree : String) (parents : List String) (message : String)
  | updateRef (branch revision : String)
  | revParse (revision : String)
  | branch
  | log (revision : Option String) (oneline mainline : Bool)

/-- What the arguments of the program ask for. -/
inductive Request where
  | run (invocation : Invocation)
  | help
  | version

/-! ## Switches -/

/-- A switch without a value. -/
def flag (letter : Option Char) (name : Option String) : Switch := ⟨letter, name, false, false⟩

/-- A switch with a value. -/
def setting (letter : Option Char) (name : Option String) : Switch := ⟨letter, name, true, false⟩

def initialBranch : Switch := setting (some 'b') (some "initial-branch")
def writeObject : Switch := flag (some 'w') (some "write")
def objectKind : Switch := setting (some 't') (some "type")
def showContent : Switch := flag (some 'p') none
def showKind : Switch := flag (some 't') none
def showSize : Switch := flag (some 's') none
def parent : Switch := { setting (some 'p') none with repeats := true }
def message : Switch := setting (some 'm') (some "message")
def oneline : Switch := flag none (some "oneline")
def firstParent : Switch := flag none (some "first-parent")

/-! ## Commands -/

/-- The commands by name. -/
inductive Name where
  | create
  | hashObject
  | catFile
  | makeTree
  | commitTree
  | updateRef
  | revParse
  | branch
  | log
  deriving DecidableEq

namespace Name

/-- All commands, as they are listed. -/
def all : List Name :=
  [create, hashObject, catFile, makeTree, commitTree, updateRef, revParse, branch, log]

/-- The word for a command. -/
def word : Name → String
  | create => "init"
  | hashObject => "hash-object"
  | catFile => "cat-file"
  | makeTree => "mktree"
  | commitTree => "commit-tree"
  | updateRef => "update-ref"
  | revParse => "rev-parse"
  | branch => "branch"
  | log => "log"

/-- The command that a word stands for. -/
def ofWord? (word : String) : Option Name := all.find? fun name => name.word == word

/-- The arguments of a command. -/
def grammar : Name → Grammar
  | create => ⟨[initialBranch], 0, 1, true⟩
  | hashObject => ⟨[writeObject, objectKind], 1, 1, true⟩
  | catFile => ⟨[showContent, showKind, showSize], 1, 1, false⟩
  | makeTree => ⟨[], 0, 0, false⟩
  | commitTree => ⟨[parent, message], 1, 1, false⟩
  | updateRef => ⟨[], 2, 2, false⟩
  | revParse => ⟨[], 1, 1, false⟩
  | branch => ⟨[], 0, 0, false⟩
  | log => ⟨[oneline, firstParent], 0, 1, false⟩

/-- The invocation that arguments of a command make, if they go together: exactly one aspect of an
object is shown, and a commit has a message. -/
def invocation? (name : Name) (args : Arguments) : Option Invocation :=
  match name, args.operands with
  | create, operands => some (.create (operands.head?.map Path.mk) (args.value? initialBranch))
  | hashObject, [file] =>
    some (.hashObject (args.has writeObject) ((args.value? objectKind).getD "blob") ⟨file⟩)
  | catFile, [object] =>
    match args.has showContent, args.has showKind, args.has showSize with
    | true, false, false => some (.catFile .content object)
    | false, true, false => some (.catFile .kind object)
    | false, false, true => some (.catFile .size object)
    | _, _, _ => none
  | makeTree, _ => some .makeTree
  | commitTree, [tree] =>
    (args.value? message).map (.commitTree tree (args.values parent))
  | updateRef, [ref, revision] => some (.updateRef ref revision)
  | revParse, [revision] => some (.revParse revision)
  | branch, _ => some .branch
  | log, operands =>
    some (.log operands.head? (args.has oneline) (args.has firstParent))
  | _, _ => none

/-- Read the arguments of a command. -/
def read (name : Name) (args : List String) : Except Refusal Request :=
  match name.grammar.read args with
  | .error .help => .ok .help
  | .error .misuse => .error .misuse
  | .ok args => (name.invocation? args).elim (.error .misuse) fun invocation =>
    .ok (.run invocation)

end Name

/-- Read what follows the word `help`: the word for a command, or nothing. -/
def readHelp : List String → Except Refusal Request
  | [] => .ok .help
  | [word] =>
    if word = "help" || (Name.ofWord? word).isSome then .ok .help else .error .misuse
  | _ => .error .misuse

/-- Read the arguments of the program. -/
def Request.ofArguments : List String → Except Refusal Request
  | [] => .error .misuse
  | word :: rest =>
    match Name.ofWord? word with
    | some name => name.read rest
    | none =>
      if word = "help" then readHelp rest
      else if word = "--help" then .ok .help
      else if word = "--version" then .ok .version
      else match word.toList with
        | '-' :: 'h' :: _ => .ok .help
        | '-' :: 'V' :: _ => .ok .version
        | _ => .error .misuse

end ObjectStore.CommandLine
