/-!
# Byte strings

Payloads, object files and ref files are lists of bytes. This module ties them to text:

* `Bytes.ofString` is the UTF-8 form of a text and `Bytes.toText?` reads it back;
* `Bytes.lossy` reads any bytes as text, one replacement character per ill-formed stretch;
* `Bytes.hex` and `Bytes.ofHex?` are the two directions of the hexadecimal form;
* `cutAt?` cuts a sequence at its first separator.

The main statements say that UTF-8 text reads back (`toText?_ofString`) and that nothing else
reads as that text (`toText?_eq_some_iff`).
-/

namespace ObjectStore

/-- A byte string. -/
abbrev Bytes := List UInt8

/-- Cut a sequence at the first separator: what stands before it, and what follows it. -/
def cutAt? {α : Type} [BEq α] (separator : α) (l : List α) : Option (List α × List α) :=
  match l.dropWhile (· != separator) with
  | [] => none
  | _ :: rest => some (l.takeWhile (· != separator), rest)

namespace Bytes

/-! ## Text -/

/-- The UTF-8 form of a text. -/
def ofString (s : String) : Bytes := s.toByteArray.data.toList

/-- The text a byte string is the UTF-8 form of, if it is well formed. -/
def toText? (b : Bytes) : Option String := String.fromUTF8? ⟨b.toArray⟩

/-- The bytes of a text read back as that text. -/
theorem toText?_ofString (s : String) : toText? (ofString s) = some s := by
  simp only [toText?, ofString, Array.toArray_toList, String.fromUTF8?]
  exact dif_pos s.isValidUTF8

/-- Bytes read as a text exactly if they are the bytes of that text. -/
theorem toText?_eq_some_iff {b : Bytes} {s : String} : toText? b = some s ↔ b = ofString s := by
  constructor
  · intro h
    unfold toText? String.fromUTF8? at h
    split at h
    · have hs := Option.some.inj h
      subst hs
      simp [ofString, String.fromUTF8]
    · cases h
  · rintro rfl
    exact toText?_ofString s

/-- The bytes of two texts in a row are those of the one and then those of the other. -/
@[simp] theorem ofString_append (s t : String) : ofString (s ++ t) = ofString s ++ ofString t := by
  simp [ofString, String.toByteArray_append, ByteArray.data_append]

/-- Two texts with the same UTF-8 form are the same text. -/
theorem ofString_injective {s t : String} (h : ofString s = ofString t) : s = t := by
  have := toText?_ofString s
  rw [h, toText?_ofString] at this
  exact (Option.some.inj this).symm

/-! ## Reading damaged text -/

/-- What the first byte of a character announces: how many bytes must follow it, and the least
and the greatest byte that may come next. -/
def announced (b : UInt8) : Option (Nat × UInt8 × UInt8) :=
  if 0xC2 ≤ b ∧ b ≤ 0xDF then some (1, 0x80, 0xBF)
  else if b = 0xE0 then some (2, 0xA0, 0xBF)
  else if b = 0xED then some (2, 0x80, 0x9F)
  else if 0xE1 ≤ b ∧ b ≤ 0xEF then some (2, 0x80, 0xBF)
  else if b = 0xF0 then some (3, 0x90, 0xBF)
  else if 0xF1 ≤ b ∧ b ≤ 0xF3 then some (3, 0x80, 0xBF)
  else if b = 0xF4 then some (3, 0x80, 0x8F)
  else none

/-- The character being read: the bytes still owed, the range of the next one, the value so far. -/
structure Unfinished where
  owed : Nat
  least : UInt8
  greatest : UInt8
  value : Nat

/-- Read text, with U+FFFD for every longest stretch that starts a character and is cut short, and
for every byte that starts none. -/
def lossyFrom (out : Array Char) : Option Unfinished → Bytes → Array Char
  | none, [] => out
  | some _, [] => out.push '\ufffd'
  | none, b :: rest =>
    if b < 0x80 then lossyFrom (out.push (Char.ofNat b.toNat)) none rest
    else match announced b with
      | some (owed, least, greatest) =>
        lossyFrom out (some ⟨owed, least, greatest, b.toNat % (1 <<< (6 - owed))⟩) rest
      | none => lossyFrom (out.push '\ufffd') none rest
  | some u, b :: rest =>
    if u.least ≤ b ∧ b ≤ u.greatest then
      let value := u.value * 64 + b.toNat % 64
      if u.owed ≤ 1 then lossyFrom (out.push (Char.ofNat value)) none rest
      else lossyFrom out (some ⟨u.owed - 1, 0x80, 0xBF, value⟩) rest
    else if b < 0x80 then
      lossyFrom ((out.push '\ufffd').push (Char.ofNat b.toNat)) none rest
    else match announced b with
      | some (owed, least, greatest) =>
        lossyFrom (out.push '\ufffd')
          (some ⟨owed, least, greatest, b.toNat % (1 <<< (6 - owed))⟩) rest
      | none => lossyFrom ((out.push '\ufffd').push '\ufffd') none rest

/-- The text of a byte string, with U+FFFD in place of ill-formed stretches. -/
def lossy (b : Bytes) : String :=
  match toText? b with
  | some s => s
  | none => String.ofList (lossyFrom #[] none b).toList

/-! ## Hexadecimal -/

/-- The two lower-case hexadecimal digits of a byte. -/
def hexPair (b : UInt8) : List Char :=
  [Nat.digitChar (b.toNat / 16), Nat.digitChar (b.toNat % 16)]

/-- The lower-case hexadecimal form, two digits per byte. -/
def hex (b : Bytes) : List Char := b.flatMap hexPair

/-- The value of a hexadecimal digit of either case. -/
def hexValue? (c : Char) : Option Nat :=
  if '0' ≤ c ∧ c ≤ '9' then some (c.toNat - '0'.toNat)
  else if 'a' ≤ c ∧ c ≤ 'f' then some (c.toNat - 'a'.toNat + 10)
  else if 'A' ≤ c ∧ c ≤ 'F' then some (c.toNat - 'A'.toNat + 10)
  else none

/-- The bytes a hexadecimal form stands for: an even number of digits of either case. -/
def ofHex? : List Char → Option Bytes
  | [] => some []
  | [_] => none
  | a :: b :: rest => do
    let high ← hexValue? a
    let low ← hexValue? b
    let tail ← ofHex? rest
    return UInt8.ofNat (16 * high + low) :: tail

/-- Every byte is written with two digits. -/
@[simp] theorem length_hex (b : Bytes) : (hex b).length = 2 * b.length := by
  induction b with
  | nil => rfl
  | cons x xs ih =>
    simp only [hex, List.flatMap_cons, List.length_append, List.length_cons] at ih ⊢
    simp only [hexPair, List.length_cons, List.length_nil]
    omega

/-- A byte's two digits read back as that byte. -/
theorem ofHex?_hexPair (b : UInt8) : ofHex? (hexPair b) = some [b] := by
  have all : ∀ n : Fin 256, ofHex? (hexPair (UInt8.ofNat n.val)) = some [UInt8.ofNat n.val] := by
    decide +kernel
  have h := all ⟨b.toNat, b.toNat_lt⟩
  simpa using h

/-- The hexadecimal form reads back as the bytes it was made from. -/
theorem ofHex?_hex (b : Bytes) : ofHex? (hex b) = some b := by
  induction b with
  | nil => rfl
  | cons x xs ih =>
    have h := ofHex?_hexPair x
    simp only [hex, List.flatMap_cons, hexPair, List.cons_append, List.nil_append] at ih h ⊢
    simp only [ofHex?, ih] at h ⊢
    revert h
    cases hexValue? (Nat.digitChar (x.toNat / 16)) <;>
      cases hexValue? (Nat.digitChar (x.toNat % 16)) <;> simp [bind, Option.bind, pure]

end Bytes

end ObjectStore
