import ObjectStore.Canonical
import ObjectStore.Signature
import ObjectStore.Text.Lines

/-!
# Commits

A commit names a tree, its parents in order, who made it and who recorded it, and carries a
message. Its payload is text: a header line for each of these, a blank line, the message and a
line feed.

`Commit.encode` writes that text and `Commit.decode` reads it. Reading skips header lines that
continue others (they start with a space) and lines with a key it does not know.
-/

namespace ObjectStore

/-- A snapshot with its history and its message. -/
structure Commit where
  tree : ObjectId
  parents : List ObjectId
  author : Signature
  committer : Signature
  message : String
  deriving DecidableEq

namespace Commit

/-- The mainline parent. -/
def parent? (commit : Commit) : Option ObjectId := commit.parents.head?

/-- Whether the commit starts a history. -/
def isRoot (commit : Commit) : Bool := commit.parents.isEmpty

/-- Whether the commit joins histories. -/
def isMerge (commit : Commit) : Bool := 1 < commit.parents.length

/-- The first line of the message. -/
def short (commit : Commit) : String :=
  String.ofList ((Text.textLines commit.message.toList).headD [])

/-! ## Writing -/

/-- The header lines of a commit. -/
def headers (commit : Commit) : List String :=
  ["tree " ++ commit.tree.text] ++ commit.parents.map (fun id => "parent " ++ id.text)
    ++ ["author " ++ commit.author.text, "committer " ++ commit.committer.text]

/-- The text of a commit, without the last line feed. -/
def text (commit : Commit) : String :=
  String.intercalate "\n" (commit.headers ++ ["", commit.message])

/-- The payload of a commit. -/
def encode (commit : Commit) : Bytes := Bytes.ofString (commit.text ++ "\n")

/-- The id of a commit. -/
def id (commit : Commit) : ObjectId := Canonical.idOf ObjectType.commit.kind commit.encode

/-! ## Reading -/

/-- Cut a text at its first blank line. -/
def cutBlankLine : List Char → Option (List Char × List Char)
  | [] => none
  | '\n' :: '\n' :: rest => some ([], rest)
  | c :: rest => (cutBlankLine rest).map fun (before, after) => (c :: before, after)

/-- What the header lines read so far say. -/
structure Partial where
  tree : Option ObjectId := none
  /-- The parents, the last one first. -/
  parents : List ObjectId := []
  author : Option Signature := none
  committer : Option Signature := none

/-- Read the id in a header line. -/
def headerId (value : List Char) : Except StoreError ObjectId :=
  (ObjectId.parse (String.ofList value)).mapError fun fault =>
    .malformed (.commit (.badId fault))

/-- Read the signature in a header line. -/
def headerSignature (value : List Char) : Except StoreError Signature :=
  (Signature.parse (String.ofList value)).mapError .invalidSignature

/-- Take in one header line. A later line for the tree or a signature replaces an earlier one. -/
def Partial.take (p : Partial) (line : List Char) : Except StoreError Partial :=
  if line.head? = some ' ' then .ok p
  else match cutAt? ' ' line with
    | none => .error (.malformed (.commit (.malformedLine (String.ofList line))))
    | some (key, value) =>
      if key = ['t', 'r', 'e', 'e'] then
        (headerId value).map fun id => { p with tree := some id }
      else if key = ['p', 'a', 'r', 'e', 'n', 't'] then
        (headerId value).map fun id => { p with parents := id :: p.parents }
      else if key = ['a', 'u', 't', 'h', 'o', 'r'] then
        (headerSignature value).map fun s => { p with author := some s }
      else if key = ['c', 'o', 'm', 'm', 'i', 't', 't', 'e', 'r'] then
        (headerSignature value).map fun s => { p with committer := some s }
      else .ok p

/-- A message as it was given, without the line feed that writing appended. -/
def dropFinalFeed (l : List Char) : List Char :=
  if l.getLast? = some '\n' then l.dropLast else l

/-- The commit that complete headers and a message make. -/
def Partial.finish (p : Partial) (message : List Char) : Except CommitFault Commit :=
  match p.tree, p.author, p.committer with
  | none, _, _ => .error .missingTree
  | some _, none, _ => .error .missingAuthor
  | some _, some _, none => .error .missingCommitter
  | some tree, some author, some committer =>
    .ok ⟨tree, p.parents.reverse, author, committer, String.ofList (dropFinalFeed message)⟩

/-- Read a commit from its text. -/
def ofText (text : List Char) : Except StoreError Commit := do
  let (headers, message) ←
    (cutBlankLine text).elim (.error (.malformed (.commit .missingBlankLine))) .ok
  let p ← (Text.textLines headers).foldlM Partial.take {}
  (p.finish message).mapError fun fault => .malformed (.commit fault)

/-- Read a commit from its payload. -/
def decode (payload : Bytes) : Except StoreError Commit :=
  match Bytes.toText? payload with
  | some text => ofText text.toList
  | none => .error (.malformed (.commit .notUtf8))

end Commit

end ObjectStore
