import ObjectStore.Proofs.Tree.Order
import ObjectStore.Proofs.Tree.Records

/-!
# Trees written and read

Writing a tree pads no mode, and reading one takes any padding. `TreeRecord.unpadded` is a record as
it is written again once it was read, and `TreeRecord.unpadded_eq_self_iff` says which records that
leaves as they are: those whose digits have no zero in front.

So what is written reads back (`Tree.decode_encode_of_records`), and what was read is written the
same exactly if nothing in it was padded (`Tree.encode_eq_iff`). `Tree.decode_encode_inverse` says
both of all trees and all payloads.
-/

namespace ObjectStore

/-! ## Records as they are written -/

namespace TreeRecord

/-- The record that an entry is written as. -/
def ofEntry (entry : TreeEntry) (hname : '\x00' ∉ entry.name.toList) : TreeRecord where
  digits := entry.mode.octal
  name := entry.name
  id := entry.id
  digits_ne_nil := Nat.toDigits_ne_nil
  isOctal c hc := by
    rw [← Numeral.isDigit_eight_iff]
    exact Numeral.isDigit_of_mem_toDigits (by decide) (by decide) _ hc
  fits := by
    rw [EntryMode.octal, Nat.ofDigitChars_toDigits (by decide) (by decide)]
    exact entry.mode.value.toNat_lt
  zero_not_mem_name := hname

/-- The record of an entry is what the entry is written as. -/
theorem bytes_ofEntry {entry : TreeEntry} (hname : '\x00' ∉ entry.name.toList) :
    (ofEntry entry hname).bytes = entry.record := by
  simp [bytes, ofEntry, TreeEntry.record]

/-- The record of an entry has the value of its mode. -/
theorem value_ofEntry {entry : TreeEntry} (hname : '\x00' ∉ entry.name.toList) :
    (ofEntry entry hname).value = entry.mode.value := by
  show UInt32.ofNat (Nat.ofDigitChars 8 entry.mode.octal 0) = entry.mode.value
  rw [EntryMode.octal, Nat.ofDigitChars_toDigits (by decide) (by decide), UInt32.ofNat_toNat]

/-- The record of an entry is read as that entry, if the mode is one that can be given. -/
theorem entry_ofEntry {entry : TreeEntry} (hname : '\x00' ∉ entry.name.toList)
    (hmode : entry.mode.IsGiven) : (ofEntry entry hname).entry = entry := by
  show TreeEntry.mk (EntryMode.ofValue (ofEntry entry hname).value) entry.name entry.id = entry
  rw [value_ofEntry, hmode.ofValue_value]

variable (record : TreeRecord)

/-- A record as it is written again once it was read. -/
def unpadded : TreeRecord := ofEntry record.entry record.zero_not_mem_name

/-- A record whose digits have no zero in front of others. -/
def IsUnpadded : Prop := record.digits.head? = some '0' → record.digits = ['0']

instance : Decidable record.IsUnpadded := inferInstanceAs (Decidable (_ → _))

/-- A record without padding is what its entry is written as. -/
theorem bytes_unpadded : record.unpadded.bytes = record.entry.record :=
  bytes_ofEntry record.zero_not_mem_name

/-- Padding makes no difference to the entry. -/
theorem entry_unpadded : record.unpadded.entry = record.entry :=
  entry_ofEntry record.zero_not_mem_name (.ofValue record.value)

/-- The digits of a record without padding are those of their value. -/
theorem digits_unpadded : record.unpadded.digits
    = Nat.toDigits 8 (Nat.ofDigitChars 8 record.digits 0) := by
  show Nat.toDigits 8 (EntryMode.ofValue record.value).value.toNat = _
  rw [EntryMode.value_ofValue, value, UInt32.toNat_ofNat_of_lt' record.fits]

/-- A record is written as it was read exactly if it has no padding. -/
theorem unpadded_eq_self_iff : record.unpadded = record ↔ record.IsUnpadded := by
  have hdigits : ∀ c ∈ record.digits, Numeral.isDigit 8 c = true := fun c hc =>
    Numeral.isDigit_eight_iff.mpr (record.isOctal c hc)
  rw [IsUnpadded, ← Numeral.toDigits_ofDigitChars_eq_iff (by decide) (by decide) hdigits
    record.digits_ne_nil, ← digits_unpadded]
  constructor
  · intro h
    rw [h]
  · intro h
    exact TreeRecord.ext h rfl rfl

end TreeRecord

/-! ## Writing what was read, and reading what was written -/

namespace Tree

variable {payload : Bytes} {tree : Tree} {records : List TreeRecord}

/-- What is written of entries that records stand for is those records without their padding. -/
theorem encode_of_records (h : tree.entries = records.map TreeRecord.entry) :
    tree.encode = (records.map TreeRecord.unpadded).flatMap TreeRecord.bytes := by
  rw [encode, h, List.flatMap_map, List.flatMap_map]
  exact List.flatMap_congr fun record _ => record.bytes_unpadded.symm

/-- A tree whose entries records stand for reads back. -/
theorem decode_encode_of_records (h : tree.entries = records.map TreeRecord.entry) :
    decode tree.encode = .ok tree := by
  refine decode_eq_ok_iff.mpr ⟨records.map TreeRecord.unpadded, encode_of_records h, ?_⟩
  rw [h, List.map_map]
  exact List.map_congr_left fun record _ => record.entry_unpadded.symm

/-- What was read is written the same exactly if no record of it was padded. -/
theorem encode_eq_iff (h : tree.entries = records.map TreeRecord.entry) :
    tree.encode = records.flatMap TreeRecord.bytes ↔ ∀ record ∈ records, record.IsUnpadded := by
  rw [encode_of_records h, TreeRecord.flatMap_bytes_inj]
  calc records.map TreeRecord.unpadded = records
      ↔ records.map TreeRecord.unpadded = records.map fun record => record := by
        rw [List.map_id']
    _ ↔ ∀ record ∈ records, record.unpadded = record := List.map_inj_left
    _ ↔ ∀ record ∈ records, record.IsUnpadded :=
      forall₂_congr fun record _ => record.unpadded_eq_self_iff

/-- Entries whose modes were come by and whose names hold no NUL have records that stand for
them. -/
theorem exists_records {entries : List TreeEntry}
    (h : ∀ entry ∈ entries, entry.mode.IsGiven ∧ '\x00' ∉ entry.name.toList) :
    ∃ records : List TreeRecord, entries = records.map TreeRecord.entry := by
  induction entries with
  | nil => exact ⟨[], rfl⟩
  | cons entry entries ih =>
    obtain ⟨⟨hmode, hname⟩, hrest⟩ := List.forall_mem_cons.mp h
    obtain ⟨records, rfl⟩ := ih hrest
    refine ⟨.ofEntry entry hname :: records, ?_⟩
    rw [List.map_cons, TreeRecord.entry_ofEntry hname hmode]

/-- Every tree of modes that were come by and names without NULs reads back as it was written. Every
payload that decodes is a row of records, and what it decodes to is written as that payload exactly
if none of them is padded, so that the tree has the id of its payload; written in either case, it
reads back. -/
theorem decode_encode_inverse :
    (∀ tree : Tree, (∀ entry ∈ tree.entries, entry.mode.IsGiven ∧ '\x00' ∉ entry.name.toList) →
      decode tree.encode = .ok tree) ∧
    ∀ (payload : Bytes) (tree : Tree), decode payload = .ok tree →
      ∃ records : List TreeRecord, payload = records.flatMap TreeRecord.bytes ∧
        (tree.encode = payload ↔ ∀ record ∈ records, record.IsUnpadded) ∧
        ((∀ record ∈ records, record.IsUnpadded) →
          tree.id = Canonical.idOf ObjectType.tree.kind payload) ∧
        decode tree.encode = .ok tree := by
  constructor
  · intro tree h
    obtain ⟨records, hrecords⟩ := exists_records h
    exact decode_encode_of_records hrecords
  · intro payload tree h
    obtain ⟨records, rfl, hrecords⟩ := decode_eq_ok_iff.mp h
    have hsame := encode_eq_iff hrecords
    refine ⟨records, rfl, hsame, fun hunpadded => ?_, decode_encode_of_records hrecords⟩
    rw [Tree.id, hsame.mpr hunpadded]

/-- A directory and a file of no known mode, with an id full of spaces and zeros. Of the two
payloads that decode to them, one is padded. -/
theorem decode_encode_inverse_padded :
    let id : ObjectId := ⟨List.replicate 10 0x20 ++ List.replicate 10 0, rfl⟩
    let tree : Tree := ⟨[⟨.directory, "a b", id⟩, ⟨.other 0, "", id⟩]⟩
    let front := Bytes.ofString "40000 a b\x00" ++ id.raw
    let unpadded := front ++ Bytes.ofString "0 \x00" ++ id.raw
    let padded := front ++ Bytes.ofString "00 \x00" ++ id.raw
    decode unpadded = .ok tree ∧ decode padded = .ok tree ∧
      tree.encode = unpadded ∧ tree.id = Canonical.idOf "tree" unpadded ∧
      tree.encode ≠ padded ∧ decode tree.encode = .ok tree := by
  intro id tree front unpadded padded
  let directory : TreeRecord := ⟨['4', '0', '0', '0', '0'], "a b", id, by decide,
    Numeral.all_isDigit_eight_iff.mp (by decide), by decide, by decide⟩
  let short : TreeRecord :=
    ⟨['0'], "", id, by decide, Numeral.all_isDigit_eight_iff.mp (by decide), by decide, by decide⟩
  let long : TreeRecord := ⟨['0', '0'], "", id, by decide,
    Numeral.all_isDigit_eight_iff.mp (by decide), by decide, by decide⟩
  have hshort : [directory, short].flatMap TreeRecord.bytes = unpadded := by decide +kernel
  have hlong : [directory, long].flatMap TreeRecord.bytes = padded := by decide +kernel
  have hunpadded : decode unpadded = .ok tree := by decide +kernel
  have hpadded : decode padded = .ok tree := by decide +kernel
  obtain ⟨-, hread⟩ := decode_encode_inverse
  obtain ⟨records, hrecords, hencode, hid, hdecode⟩ := hread unpadded tree hunpadded
  obtain rfl := TreeRecord.flatMap_bytes_inj.mp (hshort.trans hrecords)
  obtain ⟨records', hrecords', hencode', -⟩ := hread padded tree hpadded
  obtain rfl := TreeRecord.flatMap_bytes_inj.mp (hlong.trans hrecords')
  have hall : ∀ record ∈ [directory, short], record.IsUnpadded := by decide
  have hsome : ¬ ∀ record ∈ [directory, long], record.IsUnpadded := by decide
  exact ⟨hunpadded, hpadded, hencode.mpr hall, hid hall, mt hencode'.mp hsome, hdecode⟩

end Tree

end ObjectStore
