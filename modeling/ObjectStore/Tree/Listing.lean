import ObjectStore.Command.Error
import ObjectStore.Text.Blank
import ObjectStore.Text.Lines
import ObjectStore.Tree

/-!
# Tree listings

A listing has one line per entry: `<mode> <kind> <id>`, a tab and the name. `Tree.listing` writes
it, and this module reads it. Reading is freer than writing: entries may come in any order, modes
with any padding, fields with any blanks between them, and blank lines are skipped.
-/

namespace ObjectStore

namespace TreeEntry

/-- Read the entry that a line lists. -/
def ofLine (line : String) : Except ListingFault TreeEntry :=
  match cutAt? '\t' line.toList with
  | none => .error .missingTab
  | some (fields, name) =>
    match Text.words fields with
    | [modeText, kindText, idText] => do
      let mode ← (EntryMode.ofOctal (String.ofList modeText)).mapError fun fault =>
        .store (.malformed (.tree (.badMode fault)))
      let kind := String.ofList kindText
      if kind = mode.objectType.kind then
        let id ← (ObjectId.parse (String.ofList idText)).mapError fun fault =>
          .store (.invalidObjectId fault)
        return ⟨mode, String.ofList name, id⟩
      else .error (.kindMismatch mode kind)
    | _ => .error (.wrongFields (String.ofList fields))

end TreeEntry

namespace Tree

/-- Read the entries that lines list, the first line having the given number. -/
def entriesOfLines : Nat → List Bytes → Except CommandError (List TreeEntry)
  | _, [] => .ok []
  | number, line :: rest => do
    let text ← (Bytes.toText? line).elim (.error .unreadableListing) .ok
    if Text.trim text = "" then entriesOfLines (number + 1) rest
    else
      let entry ← (TreeEntry.ofLine text).mapError (.listing number)
      let entries ← entriesOfLines (number + 1) rest
      return entry :: entries

/-- Read the entries of a listing. -/
def entriesOfListing (listing : Bytes) : Except CommandError (List TreeEntry) :=
  entriesOfLines 1 (Text.lines 0x0A 0x0D listing)

end Tree

end ObjectStore
