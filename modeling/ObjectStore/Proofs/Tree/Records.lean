import Mathlib.Algebra.Group.Nat.Defs
import Mathlib.Data.List.Basic
import Mathlib.Tactic.SplitIfs
import ObjectStore.Proofs.Results
import ObjectStore.Proofs.Separators
import ObjectStore.Tree

/-!
# The records of a tree's payload

The payload of a tree is a row of records and nothing else. `TreeRecord` is a record as it may be
found there: the digits of a mode, which may be padded, a name and an id.

* `Tree.decodeRecord_eq_ok_iff`: what is read from the front of a byte string is a record, and what
  is left is what follows it.
* `TreeRecord.append_inj`: a record ends where it ends, whatever follows it. So a payload can be cut
  into records in one way only, and what is cut off in front of it is records too only if it ends
  between two of them (`TreeRecord.prefix_of_flatMap_prefix`).
* `Tree.decode_eq_ok_iff`: hence the payloads that decode are the rows of records.

Together they give `Tree.decode_records`, which says it of every byte string.
-/

namespace ObjectStore

/-! ## The digits of a mode -/

/-- The digits to the base eight. -/
theorem Numeral.isDigit_eight_iff {c : Char} : isDigit 8 c = true ↔ '0' ≤ c ∧ c ≤ '7' := by
  have hseven : c ≤ '7' ↔ c.toNat < '0'.toNat + 8 := by
    rw [Char.le_def, UInt32.le_iff_toNat_le]
    show c.toNat ≤ 55 ↔ c.toNat < 56
    omega
  simp [isDigit, hseven]

/-- The rows of such digits. -/
theorem Numeral.all_isDigit_eight_iff {digits : List Char} :
    digits.all (isDigit 8) = true ↔ ∀ c ∈ digits, '0' ≤ c ∧ c ≤ '7' := by
  simp only [List.all_eq_true, isDigit_eight_iff]

/-- A mode is read from one or more octal digits, if their value fits in 32 bits. -/
theorem EntryMode.ofOctal_eq_ok_iff {digits : List Char} {mode : EntryMode} :
    ofOctal (String.ofList digits) = .ok mode ↔
      digits ≠ [] ∧ (∀ c ∈ digits, '0' ≤ c ∧ c ≤ '7') ∧ Nat.ofDigitChars 8 digits 0 < 2 ^ 32 ∧
        mode = ofValue (UInt32.ofNat (Nat.ofDigitChars 8 digits 0)) := by
  have hbound : UInt32.size = 2 ^ 32 := rfl
  rw [← Numeral.all_isDigit_eight_iff, ofOctal, String.toList_ofList, Numeral.value?, hbound]
  by_cases hne : digits = []
  · simp [hne]
  by_cases hall : digits.all (Numeral.isDigit 8) = true
  · by_cases hfits : Nat.ofDigitChars 8 digits 0 < 2 ^ 32
    · simp only [hne, hall, hfits, List.isEmpty_iff, Bool.not_true, Bool.or_false, if_true,
        if_false, ne_eq, not_false_eq_true, true_and, Except.ok.injEq]
      exact eq_comm
    · simp only [hne, hall, hfits, List.isEmpty_iff, Bool.not_true, Bool.or_false, if_false,
        false_and, and_false, reduceCtorEq]
  · simp [hne, hall]

/-! ## Records -/

/-- A record as it may stand in the payload of a tree. The digits of the mode may be padded, and the
name may be any text without NULs, even one that no tree is built with. -/
@[ext]
structure TreeRecord where
  digits : List Char
  name : String
  id : ObjectId
  digits_ne_nil : digits ≠ []
  isOctal : ∀ c ∈ digits, '0' ≤ c ∧ c ≤ '7'
  fits : Nat.ofDigitChars 8 digits 0 < 2 ^ 32
  zero_not_mem_name : '\x00' ∉ name.toList
  deriving DecidableEq

namespace TreeRecord

/-- The value of the digits. -/
def value (record : TreeRecord) : UInt32 := UInt32.ofNat (Nat.ofDigitChars 8 record.digits 0)

/-- The entry that a record stands for. -/
def entry (record : TreeRecord) : TreeEntry :=
  ⟨EntryMode.ofValue record.value, record.name, record.id⟩

/-- The bytes of a record: the digits, a space, the name, a NUL and the twenty bytes of the id. -/
def bytes (record : TreeRecord) : Bytes :=
  Bytes.ofString (String.ofList record.digits) ++
    0x20 :: (Bytes.ofString record.name ++ 0 :: record.id.raw)

variable (record : TreeRecord)

/-- The digits of a record are read as the mode of their value. -/
theorem ofOctal_digits : EntryMode.ofOctal (String.ofList record.digits)
    = .ok (EntryMode.ofValue record.value) :=
  EntryMode.ofOctal_eq_ok_iff.mpr
    ⟨record.digits_ne_nil, record.isOctal, record.fits, rfl⟩

/-- No space is among the digits. -/
theorem space_not_mem_digits : 0x20 ∉ Bytes.ofString (String.ofList record.digits) := by
  intro h
  have hspace : ' ' ∈ record.digits := by
    rw [← String.toList_ofList (l := record.digits)]
    exact (Bytes.mem_ofString_iff (a := ' ') (by decide)).mp h
  exact absurd (record.isOctal _ hspace).1 (by decide)

/-- No zero byte is in the name. -/
theorem zero_not_mem_nameBytes : 0 ∉ Bytes.ofString record.name := by
  rw [Bytes.zero_mem_ofString_iff]
  exact record.zero_not_mem_name

/-- A record is its digits, a space, its name, a zero byte and the bytes of its id. -/
theorem bytes_append (rest : Bytes) :
    record.bytes ++ rest = Bytes.ofString (String.ofList record.digits) ++
      0x20 :: (Bytes.ofString record.name ++ 0 :: (record.id.raw ++ rest)) := by
  simp [bytes]

/-- A record is not empty. -/
theorem bytes_ne_nil : record.bytes ≠ [] := by
  simp [bytes]

variable {record}

/-- Records are written as the empty byte string only if there are none. -/
theorem flatMap_bytes_eq_nil_iff {records : List TreeRecord} :
    records.flatMap bytes = [] ↔ records = [] := by
  rw [List.flatMap_eq_nil_iff, List.eq_nil_iff_forall_not_mem]
  exact forall₂_congr fun record _ => iff_false_intro record.bytes_ne_nil

/-- A record ends where it ends, whatever follows it. -/
theorem append_inj {record' : TreeRecord} {rest rest' : Bytes}
    (h : record.bytes ++ rest = record'.bytes ++ rest') : record = record' ∧ rest = rest' := by
  rw [bytes_append, bytes_append] at h
  have hspace := cutAt?_append record.space_not_mem_digits
    (Bytes.ofString record.name ++ 0 :: (record.id.raw ++ rest))
  rw [h, cutAt?_append record'.space_not_mem_digits, Option.some.injEq, Prod.mk.injEq] at hspace
  obtain ⟨hdigits, hafter⟩ := hspace
  have hzero := cutAt?_append record.zero_not_mem_nameBytes (record.id.raw ++ rest)
  rw [← hafter, cutAt?_append record'.zero_not_mem_nameBytes, Option.some.injEq,
    Prod.mk.injEq] at hzero
  obtain ⟨hname, hid⟩ := hzero
  have htake := ObjectId.takeRaw_append record.id rest
  rw [← hid, ObjectId.takeRaw_append, Except.ok.injEq, Prod.mk.injEq] at htake
  refine ⟨TreeRecord.ext ?_ ?_ htake.1.symm, htake.2.symm⟩
  · exact (String.ofList_inj.mp (Bytes.ofString_injective hdigits)).symm
  · exact (Bytes.ofString_injective hname).symm

/-- What stands in front of a row of records is records itself only if it ends between two of
them. -/
theorem prefix_of_flatMap_prefix {records front : List TreeRecord}
    (h : front.flatMap bytes <+: records.flatMap bytes) : front <+: records := by
  induction front generalizing records with
  | nil => exact List.nil_prefix
  | cons record front ih =>
    obtain ⟨rest, hrest⟩ := h
    rw [List.flatMap_cons] at hrest
    cases records with
    | nil =>
      rw [List.flatMap_nil, List.append_assoc, List.append_eq_nil_iff] at hrest
      exact absurd hrest.1 record.bytes_ne_nil
    | cons record' records =>
      rw [List.append_assoc, List.flatMap_cons] at hrest
      obtain ⟨rfl, hfront⟩ := append_inj hrest
      exact (List.prefix_cons_inj record).mpr (ih ⟨rest, hfront⟩)

/-- A row of records can be cut into records in one way only. -/
theorem flatMap_bytes_inj {records records' : List TreeRecord} :
    records.flatMap bytes = records'.flatMap bytes ↔ records = records' := by
  constructor
  · intro h
    have hprefix : records.flatMap bytes <+: records'.flatMap bytes := h ▸ List.prefix_rfl
    obtain ⟨more, rfl⟩ := prefix_of_flatMap_prefix hprefix
    rw [List.flatMap_append, List.self_eq_append_right, flatMap_bytes_eq_nil_iff] at h
    rw [h, List.append_nil]
  · exact fun h => congrArg _ h

end TreeRecord

namespace Tree

variable {payload rest : Bytes} {entry : TreeEntry} {entries : List TreeEntry} {tree : Tree}

/-! ## Reading records -/

/-- What is read from the front of a byte string is a record, and what follows it is left. -/
theorem decodeRecord_eq_ok_iff :
    decodeRecord payload = .ok (entry, rest) ↔
      ∃ record : TreeRecord, record.entry = entry ∧ payload = record.bytes ++ rest := by
  unfold decodeRecord
  constructor
  · intro h
    obtain ⟨⟨modeBytes, afterMode⟩, hmode, h⟩ := bind_eq_ok_iff.mp h
    obtain ⟨modeText, hmodeText, h⟩ := bind_eq_ok_iff.mp h
    obtain ⟨mode, hoctal, h⟩ := bind_eq_ok_iff.mp h
    obtain ⟨⟨nameBytes, afterName⟩, hname, h⟩ := bind_eq_ok_iff.mp h
    obtain ⟨name, hnameText, h⟩ := bind_eq_ok_iff.mp h
    obtain ⟨⟨id, after⟩, hid, h⟩ := bind_eq_ok_iff.mp h
    cases h
    obtain ⟨rfl, -⟩ := cutAt?_eq_some_iff.mp (elim_eq_ok_iff.mp hmode)
    obtain ⟨rfl, hzero⟩ := cutAt?_eq_some_iff.mp (elim_eq_ok_iff.mp hname)
    rw [elim_eq_ok_iff, Bytes.toText?_eq_some_iff] at hmodeText hnameText
    subst hmodeText hnameText
    rw [mapError_eq_ok_iff, ← String.ofList_toList (s := modeText)] at hoctal
    obtain ⟨hne, hdigits, hfits, rfl⟩ := EntryMode.ofOctal_eq_ok_iff.mp hoctal
    have hafter := ObjectId.takeRaw_eq_ok_iff.mp (mapError_eq_ok_iff.mp hid)
    refine ⟨⟨modeText.toList, name, id, hne, hdigits, hfits, ?_⟩, rfl, ?_⟩
    · rwa [Bytes.zero_mem_ofString_iff] at hzero
    · rw [TreeRecord.bytes_append, String.ofList_toList, hafter]
  · rintro ⟨record, rfl, rfl⟩
    rw [TreeRecord.bytes_append, cutAt?_append record.space_not_mem_digits]
    simp only [Option.elim_some, ok_bind, Bytes.toText?_ofString, record.ofOctal_digits,
      mapError_ok, cutAt?_append record.zero_not_mem_nameBytes, ObjectId.takeRaw_append]
    rfl

/-- The empty byte string is read as no records. -/
theorem decodeRecords_nil (fuel : Nat) :
    decodeRecords fuel [] = .ok entries ↔
      ∃ records : List TreeRecord, [] = records.flatMap TreeRecord.bytes ∧
        entries = records.map TreeRecord.entry := by
  have hnil : decodeRecords fuel [] = .ok [] := by
    cases fuel <;> rfl
  rw [hnil, Except.ok.injEq]
  constructor
  · rintro rfl
    exact ⟨[], rfl, rfl⟩
  · rintro ⟨records, hrecords, rfl⟩
    rw [TreeRecord.flatMap_bytes_eq_nil_iff.mp hrecords.symm, List.map_nil]

/-- Any other byte string is read one record at a time. -/
theorem decodeRecords_succ (fuel : Nat) (hne : payload ≠ []) :
    decodeRecords (fuel + 1) payload = (decodeRecord payload >>= fun (entry, rest) =>
      decodeRecords fuel rest >>= fun entries => pure (entry :: entries)) := by
  cases payload with
  | nil => exact absurd rfl hne
  | cons => rfl

/-- Records are read until nothing is left, if the fuel is not less than the bytes. -/
theorem decodeRecords_eq_ok_iff {fuel : Nat} (hfuel : payload.length ≤ fuel) :
    decodeRecords fuel payload = .ok entries ↔
      ∃ records : List TreeRecord, payload = records.flatMap TreeRecord.bytes ∧
        entries = records.map TreeRecord.entry := by
  induction fuel generalizing payload entries with
  | zero =>
    obtain rfl := List.length_eq_zero_iff.mp (Nat.le_zero.mp hfuel)
    exact decodeRecords_nil 0
  | succ fuel ih =>
    by_cases hne : payload = []
    · subst hne
      exact decodeRecords_nil (fuel + 1)
    rw [decodeRecords_succ fuel hne, bind_eq_ok_iff]
    -- every record takes at least one byte, so the fuel suffices for what follows the first
    have hrest : ∀ (record : TreeRecord) (rest : Bytes), payload = record.bytes ++ rest →
        rest.length ≤ fuel := by
      rintro record rest rfl
      have := List.length_pos_iff.mpr record.bytes_ne_nil
      rw [List.length_append] at hfuel
      omega
    constructor
    · rintro ⟨⟨entry, rest⟩, hrecord, h⟩
      obtain ⟨more, hmore, h⟩ := bind_eq_ok_iff.mp h
      cases h
      obtain ⟨record, rfl, hbytes⟩ := decodeRecord_eq_ok_iff.mp hrecord
      obtain ⟨records, rfl, rfl⟩ := (ih (hrest record rest hbytes)).mp hmore
      exact ⟨record :: records, hbytes, rfl⟩
    · rintro ⟨records, hbytes, rfl⟩
      cases records with
      | nil => exact absurd hbytes hne
      | cons record records =>
        refine ⟨_, decodeRecord_eq_ok_iff.mpr ⟨record, rfl, hbytes⟩, ?_⟩
        exact bind_eq_ok_iff.mpr ⟨_, (ih (hrest record _ hbytes)).mpr ⟨records, rfl, rfl⟩, rfl⟩

/-- The payloads that decode are the rows of records, and the entries are those the records stand
for. -/
theorem decode_eq_ok_iff :
    decode payload = .ok tree ↔
      ∃ records : List TreeRecord, payload = records.flatMap TreeRecord.bytes ∧
        tree.entries = records.map TreeRecord.entry := by
  rw [← decodeRecords_eq_ok_iff (Nat.le_refl payload.length), decode]
  cases hrecords : decodeRecords payload.length payload with
  | error fault => simp
  | ok entries =>
    rw [Except.ok.injEq, Except.ok.injEq]
    constructor
    · rintro rfl
      rfl
    · rintro rfl
      rfl

/-- Whatever does not decode is malformed as a tree. -/
theorem decode_cases (payload : Bytes) :
    (∃ tree, decode payload = .ok tree) ∨
      ∃ fault, decode payload = .error (.malformed (.tree fault)) := by
  unfold decode
  cases decodeRecords payload.length payload with
  | ok entries => exact Or.inl ⟨⟨entries⟩, rfl⟩
  | error fault => exact Or.inr ⟨fault, rfl⟩

/-- A byte string decodes exactly if it is a row of records, to the entries they stand for in order,
and is malformed otherwise. It is such a row in one way only, so what is left of a row that was cut
short is malformed unless it was cut between two records. -/
theorem decode_records :
    (∀ (payload : Bytes) (tree : Tree), decode payload = .ok tree ↔
      ∃ records : List TreeRecord, payload = records.flatMap TreeRecord.bytes ∧
        tree.entries = records.map TreeRecord.entry) ∧
    (∀ payload : Bytes, (∃ records : List TreeRecord, payload = records.flatMap TreeRecord.bytes) ∨
      ∃ fault, decode payload = .error (.malformed (.tree fault))) ∧
    (∀ records records' : List TreeRecord,
      records.flatMap TreeRecord.bytes = records'.flatMap TreeRecord.bytes ↔ records = records') ∧
    ∀ (records : List TreeRecord) (n : Nat),
      (∃ k, (records.flatMap TreeRecord.bytes).take n
        = (records.take k).flatMap TreeRecord.bytes) ∨
      ∃ fault, decode ((records.flatMap TreeRecord.bytes).take n)
        = .error (.malformed (.tree fault)) := by
  refine ⟨fun payload tree => decode_eq_ok_iff, fun payload => ?_,
    fun records records' => TreeRecord.flatMap_bytes_inj, fun records n => ?_⟩
  · refine (decode_cases payload).imp_left ?_
    rintro ⟨tree, h⟩
    obtain ⟨records, hpayload, -⟩ := decode_eq_ok_iff.mp h
    exact ⟨records, hpayload⟩
  · refine (decode_cases _).imp_left ?_
    rintro ⟨tree, h⟩
    obtain ⟨front, hfront, -⟩ := decode_eq_ok_iff.mp h
    have hprefix : front <+: records :=
      TreeRecord.prefix_of_flatMap_prefix (hfront ▸ List.take_prefix _ _)
    exact ⟨front.length, by rw [hfront, ← List.prefix_iff_eq_take.mp hprefix]⟩

end Tree

end ObjectStore
