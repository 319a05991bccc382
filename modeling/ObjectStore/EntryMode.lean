import ObjectStore.Numeral
import ObjectStore.ObjectType
import ObjectStore.Text.Quoted

/-!
# Entry modes

The mode of a tree entry says what the entry is: a file, an executable file, a symbolic link, a
directory or a link to a commit. Every other 32-bit value is kept as it is. A mode is written in
octal without padding and read from octal with any padding.

Modes made from a value give that value back (`value_ofValue`).
-/

namespace ObjectStore

/-- What a tree entry is. -/
inductive EntryMode where
  | regular
  | executable
  | symlink
  | directory
  | submodule
  | other (value : UInt32)
  deriving DecidableEq

/-- Why a text is not a mode. -/
inductive ModeFault where
  /-- Not a non-empty row of octal digits. -/
  | notOctal (text : String)
  /-- A value that does not fit in 32 bits. -/
  | tooLarge
  deriving DecidableEq, Repr

/-- The wording of each fault. -/
def ModeFault.message : ModeFault → String
  | notOctal text => "invalid entry mode " ++ Text.quoted text
  | tooLarge => "number too large to fit in target type"

namespace EntryMode

/-- The value of a mode. -/
def value : EntryMode → UInt32
  | regular => 0o100644
  | executable => 0o100755
  | symlink => 0o120000
  | directory => 0o40000
  | submodule => 0o160000
  | other value => value

/-- The mode with a given value. -/
def ofValue (value : UInt32) : EntryMode :=
  if value = 0o100644 then regular
  else if value = 0o100755 then executable
  else if value = 0o120000 then symlink
  else if value = 0o40000 then directory
  else if value = 0o160000 then submodule
  else other value

/-- The octal digits of a mode, without padding. -/
def octal (mode : EntryMode) : List Char := Nat.toDigits 8 mode.value.toNat

/-- The octal digits of a mode, six of them at least. -/
def paddedOctal (mode : EntryMode) : List Char :=
  List.replicate (6 - mode.octal.length) '0' ++ mode.octal

/-- Read a mode from octal digits. -/
def ofOctal (text : String) : Except ModeFault EntryMode :=
  match Numeral.value? 8 text.toList with
  | none => .error (.notOctal text)
  | some n => if n < UInt32.size then .ok (ofValue (UInt32.ofNat n)) else .error .tooLarge

/-- Whether the entry is a directory. -/
def isTree (mode : EntryMode) : Bool := mode = directory

/-- The type of object an entry of this mode points at. -/
def objectType : EntryMode → ObjectType
  | directory => .tree
  | submodule => .commit
  | _ => .blob

/-- The name of a mode in messages. -/
def name : EntryMode → String
  | regular => "Regular"
  | executable => "Executable"
  | symlink => "Symlink"
  | directory => "Directory"
  | submodule => "Submodule"
  | other value => "Other(" ++ Numeral.decimal value.toNat ++ ")"

/-- No value is lost: a mode made from it has it. -/
@[simp] theorem value_ofValue (value : UInt32) : (ofValue value).value = value := by
  unfold ofValue
  split
  · rename_i h; exact h.symm
  split
  · rename_i h; exact h.symm
  split
  · rename_i h; exact h.symm
  split
  · rename_i h; exact h.symm
  split
  · rename_i h; exact h.symm
  · rfl

end EntryMode

end ObjectStore
