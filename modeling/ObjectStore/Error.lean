import ObjectStore.EntryMode
import ObjectStore.FileTree.Fault
import ObjectStore.ObjectId
import ObjectStore.Path

/-!
# Errors of the store

Every failing operation of the store says what was wrong as a value of `StoreError`. The causes
are values too, down to the reason why a header or a tree record could not be read; the wording
is in the functions named `message`.

Two classes of errors matter to callers: something is missing (`StoreError.isNotFound`), or stored
data is damaged (`StoreError.isCorruption`).
-/

namespace ObjectStore

/-! ## Damaged objects -/

/-- Why compressed data could not be inflated. -/
inductive InflateFault where
  /-- The data ends before the stream does. -/
  | incomplete
  /-- The data is not a well-formed stream. -/
  | corrupt
  deriving DecidableEq, Repr

/-- The wording of each fault. -/
def InflateFault.message : InflateFault → String
  | incomplete => "incomplete deflate stream"
  | corrupt => "corrupt deflate stream"

/-- Why bytes are not the canonical form of an object. -/
inductive HeaderFault where
  | missingTerminator
  | notUtf8
  | malformedHeader (header : String)
  | emptyKind
  | malformedSize (size : String)
  | sizeMismatch (declared actual : Nat)
  deriving DecidableEq, Repr

/-- The wording of each fault. -/
def HeaderFault.message : HeaderFault → String
  | missingTerminator => "missing header terminator"
  | notUtf8 => "header is not utf-8"
  | malformedHeader header => "malformed header " ++ Text.quoted header
  | emptyKind => "empty object kind"
  | malformedSize size => "malformed object size " ++ Text.quoted size
  | sizeMismatch declared actual =>
    "declared size " ++ Numeral.decimal declared ++ " does not match payload size "
      ++ Numeral.decimal actual

/-- Why a payload is not a tree. -/
inductive TreeFault where
  | endInMode
  | modeNotUtf8
  | badMode (fault : ModeFault)
  | endInName
  | nameNotUtf8
  | badId (fault : IdFault)
  deriving DecidableEq, Repr

/-- The wording of each fault. -/
def TreeFault.message : TreeFault → String
  | endInMode => "unexpected EOF in mode"
  | modeNotUtf8 => "mode is not utf-8"
  | badMode fault => fault.message
  | endInName => "unexpected EOF in name"
  | nameNotUtf8 => "entry name is not utf-8"
  | badId fault => "invalid object id: " ++ fault.message

/-- Why a payload is not a commit. -/
inductive CommitFault where
  | notUtf8
  | missingBlankLine
  | malformedLine (line : String)
  | badId (fault : IdFault)
  | missingTree
  | missingAuthor
  | missingCommitter
  deriving DecidableEq, Repr

/-- The wording of each fault. -/
def CommitFault.message : CommitFault → String
  | notUtf8 => "payload is not utf-8"
  | missingBlankLine => "missing blank line before message"
  | malformedLine line => "invalid header line " ++ Text.quoted line
  | badId fault => "invalid object id: " ++ fault.message
  | missingTree => "missing tree line"
  | missingAuthor => "missing author line"
  | missingCommitter => "missing committer line"

/-- Why a payload could not be decoded as its kind. -/
inductive PayloadFault where
  | tree (fault : TreeFault)
  | commit (fault : CommitFault)
  deriving DecidableEq, Repr

/-- The type the payload was read as. -/
def PayloadFault.objectType : PayloadFault → ObjectType
  | tree _ => .tree
  | commit _ => .commit

/-- The wording of each fault. -/
def PayloadFault.message (fault : PayloadFault) : String :=
  "malformed " ++ fault.objectType.kind ++ " payload: " ++
    match fault with
    | tree fault => fault.message
    | commit fault => fault.message

/-- What is wrong with a stored object. -/
inductive Damage where
  | inflate (fault : InflateFault)
  | header (fault : HeaderFault)
  | digest (actual : ObjectId)
  | payload (fault : PayloadFault)
  deriving DecidableEq

/-- The wording of each kind of damage. -/
def Damage.message : Damage → String
  | inflate fault => "cannot decompress: " ++ fault.message
  | header fault => fault.message
  | digest actual => "content hashes to " ++ actual.text
  | payload fault => fault.message

/-! ## Signatures and refs -/

/-- Why something is not a signature. -/
inductive SignatureFault where
  /-- A delimiter inside the name or the email. -/
  | delimiter (name email : String)
  | missingOpen (text : String)
  | missingClose (text : String)
  | badDate (text : String)
  deriving DecidableEq, Repr

/-- The wording of each fault. -/
def SignatureFault.message : SignatureFault → String
  | delimiter name email => name ++ " <" ++ email ++ ">"
  | missingOpen text => "missing '<' in " ++ Text.quoted text
  | missingClose text => "missing '>' in " ++ Text.quoted text
  | badDate text => "invalid date " ++ Text.quoted text

/-- Why a ref file is not understood. -/
inductive RefFault where
  /-- Neither an id nor a symbolic ref. -/
  | unrecognized (content : String)
  | tooManyLevels
  | detached (id : ObjectId)
  /-- A symbolic ref that does not start with the given prefix. -/
  | outside (heads : String)
  deriving DecidableEq

/-- The wording of each fault. -/
def RefFault.message : RefFault → String
  | unrecognized content => "unrecognized content " ++ Text.quoted content
  | tooManyLevels => "too many levels of symbolic refs"
  | detached id => "detached at " ++ id.text
  | outside heads => "symbolic ref must start with '" ++ heads ++ "'"

/-! ## Errors of an operation -/

/-- Why an operation of the store failed. -/
inductive StoreError where
  | io (path : Path) (fault : IoFault)
  | objectNotFound (id : ObjectId)
  | corruptObject (id : ObjectId) (damage : Damage)
  | malformed (fault : PayloadFault)
  | unknownObjectType (kind : String)
  | unexpectedObjectType (id : ObjectId) (expected found : ObjectType)
  | duplicateEntry (name : String)
  | invalidEntryName (name : String)
  | invalidObjectKind (kind : String)
  | invalidObjectId (fault : IdFault)
  | invalidBranchName (name : String)
  | invalidSignature (fault : SignatureFault)
  | invalidRef (name : String) (fault : RefFault)
  | refNotFound (name : String)
  deriving DecidableEq

namespace StoreError

/-- The wording of each error. -/
def message : StoreError → String
  | io path fault => "io error at " ++ path.text ++ ": " ++ fault.message
  | objectNotFound id => "object not found: " ++ id.text
  | corruptObject id damage => "corrupt object " ++ id.text ++ ": " ++ damage.message
  | malformed fault => fault.message
  | unknownObjectType kind => "unknown object type: " ++ kind
  | unexpectedObjectType id expected found =>
    "object " ++ id.text ++ " is a " ++ found.kind ++ ", expected a " ++ expected.kind
  | duplicateEntry name => "duplicate tree entry: " ++ name
  | invalidEntryName name => "invalid tree entry name: " ++ Text.quoted name
  | invalidObjectKind kind => "invalid object kind: " ++ Text.quoted kind
  | invalidObjectId fault => "invalid object id: " ++ fault.message
  | invalidBranchName name => "invalid branch name: " ++ Text.quoted name
  | invalidSignature fault => "invalid signature: " ++ fault.message
  | invalidRef name fault => "invalid ref " ++ name ++ ": " ++ fault.message
  | refNotFound name => "ref not found: " ++ name

/-- The object or the ref does not exist. -/
def isNotFound : StoreError → Bool
  | objectNotFound _ => true
  | refNotFound _ => true
  | _ => false

/-- Stored data is damaged. -/
def isCorruption : StoreError → Bool
  | corruptObject _ _ => true
  | malformed _ => true
  | _ => false

/-- The errors below this one: an error of the file tree stands on its fault. -/
def causes : StoreError → List String
  | io _ fault => fault.message :: fault.causes
  | _ => []

/-- A payload that could not be decoded, when it was read from a stored object. -/
def blame (id : ObjectId) : StoreError → StoreError
  | malformed fault => corruptObject id (.payload fault)
  | err => err

end StoreError

end ObjectStore
