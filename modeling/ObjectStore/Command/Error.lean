import ObjectStore.Error

/-!
# Errors of commands

A command fails with an error of the store, or for a reason of its own. `CommandError.chain` is
what is said about it: the error itself, then what caused it, down to the last cause.
`CommandError.storeError?` is the error of the store among them, if there is one.
-/

namespace ObjectStore

/-- Why a line is not a line of a tree listing. -/
inductive ListingFault where
  | missingTab
  /-- What stands before the tab is not three fields. -/
  | wrongFields (fields : String)
  | kindMismatch (mode : EntryMode) (kind : String)
  | store (err : StoreError)
  deriving DecidableEq

/-- What is said about a line, and what caused it. -/
def ListingFault.chain : ListingFault → List String
  | missingTab => ["missing tab before the entry name"]
  | wrongFields fields => ["expected '<mode> <kind> <id>', got " ++ Text.quoted fields]
  | kindMismatch mode kind => ["mode " ++ mode.name ++ " does not match object kind " ++ kind]
  | store err => err.message :: err.causes

/-- The error of the store among the causes. -/
def ListingFault.storeError? : ListingFault → Option StoreError
  | store err => some err
  | _ => none

/-- Why a command failed. -/
inductive CommandError where
  | store (err : StoreError)
  /-- The repository could not be made. -/
  | creation (root : Path) (err : StoreError)
  /-- The current branch has no commits. -/
  | unbornHead
  /-- The branch whose history is wanted has no commits. -/
  | noHistory (branch : String)
  | ambiguous (revision : String) (candidates : List ObjectId)
  | unknownRevision (revision : String)
  | unreadable (file : Path) (fault : IoFault)
  /-- A line of a listing is not UTF-8. -/
  | unreadableListing
  /-- A line of a listing, counted from one, is wrong. -/
  | listing (line : Nat) (fault : ListingFault)
  | missingVariable (name : String)
  | badDate (text : String)
  deriving DecidableEq

namespace CommandError

/-- What is said about an error: the error, then its causes. -/
def chain : CommandError → List String
  | store err => err.message :: err.causes
  | creation root err =>
    ("failed to initialize repository at " ++ root.text) :: err.message :: err.causes
  | unbornHead => ["HEAD does not point to a commit yet"]
  | noHistory branch => ["your current branch '" ++ branch ++ "' does not have any commits yet"]
  | ambiguous revision candidates =>
    ["short object ID " ++ revision ++ " is ambiguous: "
      ++ String.intercalate ", " (candidates.map ObjectId.short)]
  | unknownRevision revision => ["unknown revision '" ++ revision ++ "'"]
  | unreadable file fault => ["could not read " ++ file.text, fault.message]
  | unreadableListing => ["could not read tree listing", IoFault.notUtf8.message]
  | listing line fault => ("invalid tree entry on line " ++ Numeral.decimal line) :: fault.chain
  | missingVariable name => [name ++ " not set", "environment variable not found"]
  | badDate text => ["invalid date format " ++ Text.quoted text]

/-- The error of the store among an error and its causes. -/
def storeError? : CommandError → Option StoreError
  | store err => some err
  | creation _ err => some err
  | listing _ fault => fault.storeError?
  | _ => none

end CommandError

end ObjectStore
