import ObjectStore.Error

/-!
# Canonical form

An object is a kind and a payload. Its canonical form is the kind, a space, the size of the
payload in decimal, a NUL and the payload; the SHA-1 of that form is the object's id, and the form
is what an object file holds.

`Canonical.read` accepts exactly the canonical forms: a form reads back (`read_form`), and what
reads is a form (`form_of_read`).
-/

namespace ObjectStore

/-- An object as it is stored: its kind and its payload. -/
structure RawObject where
  kind : String
  payload : Bytes
  deriving DecidableEq

namespace Canonical

/-- A text that may stand as a kind: not empty, and without the characters that end a kind. -/
def isKind (kind : String) : Bool :=
  !kind.isEmpty && kind.toList.all fun c => c != ' ' && c != '\x00'

/-- The header of an object, up to and with its NUL. -/
def header (kind : String) (size : Nat) : String := kind ++ " " ++ Numeral.decimal size ++ "\x00"

/-- The canonical form of an object. -/
def form (kind : String) (payload : Bytes) : Bytes :=
  Bytes.ofString (header kind payload.length) ++ payload

/-- Sizes are below this bound. -/
def sizeBound : Nat := UInt64.size

/-- Read a size written with the fewest digits. -/
def size? (text : List Char) : Option Nat :=
  match Numeral.value? 10 text with
  | some n => if n < sizeBound ∧ Nat.toDigits 10 n = text then some n else none
  | none => none

/-- Read an object from its canonical form. -/
def read (b : Bytes) : Except HeaderFault RawObject :=
  match cutAt? 0 b with
  | none => .error .missingTerminator
  | some (head, payload) =>
    match Bytes.toText? head with
    | none => .error .notUtf8
    | some text =>
      match cutAt? ' ' text.toList with
      | none => .error (.malformedHeader text)
      | some ([], _) => .error .emptyKind
      | some (kind, size) =>
        match size? size with
        | none => .error (.malformedSize (String.ofList size))
        | some declared =>
          if payload.length = declared then .ok ⟨String.ofList kind, payload⟩
          else .error (.sizeMismatch declared payload.length)

/-- The id of an object whose kind need not be valid. -/
def idOf (kind : String) (payload : Bytes) : ObjectId := ObjectId.ofCanonical (form kind payload)

/-- The id of an object, if its kind is valid. -/
def hash (kind : String) (payload : Bytes) : Except StoreError ObjectId :=
  if isKind kind then .ok (idOf kind payload) else .error (.invalidObjectKind kind)

end Canonical

/-- The known type of a stored object. -/
def RawObject.objectType (object : RawObject) : Except StoreError ObjectType :=
  match ObjectType.ofKind? object.kind with
  | some t => .ok t
  | none => .error (.unknownObjectType object.kind)

end ObjectStore
