import ObjectStore.Numeral
import ObjectStore.Sha1

/-!
# Object ids

An object id is twenty bytes, the SHA-1 of an object's canonical form. It is written as forty
lower-case hexadecimal digits and read from digits of either case. The first two digits name the
directory of the object's file and the other thirty-eight the file.

Reading what was written gives the id back (`parse_hex`), and the forty digits determine the id
(`hex_injective`).
-/

namespace ObjectStore

/-- Why something is not an object id. -/
inductive IdFault where
  /-- A text that is not forty hexadecimal digits. -/
  | notHex (text : String)
  /-- A row of bytes that is not twenty long. -/
  | rawLength (length : Nat)
  /-- Fewer than twenty bytes left to read. -/
  | truncated
  deriving DecidableEq, Repr

/-- The wording of each fault. -/
def IdFault.message : IdFault → String
  | notHex text => text
  | rawLength length => "expected 20 raw bytes, got " ++ Numeral.decimal length
  | truncated => "truncated raw object id: failed to fill whole buffer"

/-- The id of an object: twenty bytes. -/
structure ObjectId where
  raw : Bytes
  length_raw : raw.length = 20
  deriving DecidableEq

namespace ObjectId

/-- The id that the given bytes are. -/
def ofRaw (raw : Bytes) : Except IdFault ObjectId :=
  if h : raw.length = 20 then .ok ⟨raw, h⟩ else .error (.rawLength raw.length)

/-- Read an id from the front of a byte string; the second part is what follows it. -/
def takeRaw (b : Bytes) : Except IdFault (ObjectId × Bytes) :=
  if h : (b.take 20).length = 20 then .ok (⟨b.take 20, h⟩, b.drop 20) else .error .truncated

/-- The id of an object with the given canonical form. -/
def ofCanonical (canonical : Bytes) : ObjectId :=
  ⟨Sha1.digest canonical, Sha1.length_digest canonical⟩

/-- The forty lower-case digits. -/
def hex (id : ObjectId) : List Char := Bytes.hex id.raw

/-- The forty lower-case digits, as text. -/
def text (id : ObjectId) : String := String.ofList id.hex

/-- The first seven digits, enough to tell ids apart in print. -/
def short (id : ObjectId) : String := String.ofList (id.hex.take 7)

/-- The directory and the file name under which the object is kept. -/
def fanOut (id : ObjectId) : String × String :=
  (String.ofList (id.hex.take 2), String.ofList (id.hex.drop 2))

/-- Read an id from its forty digits. -/
def parse? (text : String) : Option ObjectId :=
  match Bytes.ofHex? text.toList with
  | some raw => if h : raw.length = 20 then some ⟨raw, h⟩ else none
  | none => none

/-- Read an id from its forty digits; the fault carries the text as given. -/
def parse (text : String) : Except IdFault ObjectId :=
  match parse? text with
  | some id => .ok id
  | none => .error (.notHex text)

/-- Ids in the order of their digits. -/
def le (a b : ObjectId) : Bool := decide (a.text ≤ b.text)

/-- An id is written with forty digits. -/
@[simp] theorem length_hex (id : ObjectId) : id.hex.length = 40 := by
  simp [hex, id.length_raw]

/-- The bytes of an id make that id. -/
theorem ofRaw_raw (id : ObjectId) : ofRaw id.raw = .ok id := by
  simp [ofRaw, id.length_raw]

/-- The text of an id reads back as that id. -/
theorem parse?_text (id : ObjectId) : parse? id.text = some id := by
  simp [parse?, text, hex, Bytes.ofHex?_hex, id.length_raw]

/-- The text of an id is accepted and read as that id. -/
theorem parse_text (id : ObjectId) : parse id.text = .ok id := by
  simp [parse, parse?_text]

/-- Two ids with the same digits are the same id. -/
theorem hex_injective {a b : ObjectId} (h : a.hex = b.hex) : a = b := by
  have ha := parse?_text a
  rw [text, h, ← text, parse?_text] at ha
  exact (Option.some.inj ha).symm

/-- The bytes of an id in front of others are taken for that id, and the others are left. -/
theorem takeRaw_append (id : ObjectId) (rest : Bytes) :
    takeRaw (id.raw ++ rest) = .ok (id, rest) := by
  have h : (id.raw ++ rest).take 20 = id.raw := by
    rw [List.take_append_of_le_length (by simp [id.length_raw])]
    exact List.take_of_length_le (by simp [id.length_raw])
  have h' : (id.raw ++ rest).drop 20 = rest := by
    have : (id.raw ++ rest).drop id.raw.length = rest := List.drop_left
    rwa [id.length_raw] at this
  simp [takeRaw, h, h', id.length_raw]

/-- The id read from the front of a byte string is what stands there. -/
theorem takeRaw_eq_ok_iff {b rest : Bytes} {id : ObjectId} :
    takeRaw b = .ok (id, rest) ↔ b = id.raw ++ rest := by
  constructor
  · intro h
    unfold takeRaw at h
    split at h
    · cases h
      exact (List.take_append_drop 20 b).symm
    · cases h
  · rintro rfl
    exact takeRaw_append id rest

end ObjectId

end ObjectStore
