import ObjectStore.Proofs.Places

/-!
# The forms of an id

An id is twenty bytes, forty digits, or the path of an object's file, and each of these determines
the others.

The digits of an id are read pair by pair, where a pair is a number of its own and may thus have a
plus sign in place of its first digit (`Bytes.pairAt?`); a pair that is no number counts as zero. On
the digits of an id neither of this makes a difference: every pair is the byte it was written for
(`Bytes.pairAt?_of_ofHex?`), because nothing but digits is read as an id.

Digits keep the order of the bytes they are written for, so ids in the order of their texts are in
the order of their bytes (`ObjectId.text_lt_iff`).
-/

namespace ObjectStore

namespace Bytes

variable {a b : UInt8} {x y : Bytes}

/-! ## Digits -/

/-- A hexadecimal digit of either case. -/
def IsHexDigit (c : Char) : Prop :=
  ('0' ≤ c ∧ c ≤ '9') ∨ ('a' ≤ c ∧ c ≤ 'f') ∨ ('A' ≤ c ∧ c ≤ 'F')

/-- The characters that have a value. -/
theorem isSome_hexValue?_iff {c : Char} : (hexValue? c).isSome = true ↔ IsHexDigit c := by
  unfold hexValue? IsHexDigit
  split_ifs with hnumber hlower hupper
  · exact iff_of_true rfl (Or.inl hnumber)
  · exact iff_of_true rfl (Or.inr (Or.inl hlower))
  · exact iff_of_true rfl (Or.inr (Or.inr hupper))
  · refine iff_of_false Bool.false_ne_true ?_
    rintro (h | h | h)
    · exact hnumber h
    · exact hlower h
    · exact hupper h

/-! ## Reading pair by pair -/

/-- The number that a text of hexadecimal digits stands for. A plus sign may stand in front. -/
def hexNumber? (text : List Char) : Option Nat :=
  let digits := if text.head? = some '+' then text.tail else text
  if digits = [] then none
  else digits.foldlM (fun n c => (hexValue? c).map (16 * n + ·)) 0

/-- The byte that the pair of characters at `2 * i` stands for. -/
def pairAt? (text : List Char) (i : Nat) : Option UInt8 :=
  (hexNumber? ((text.drop (2 * i)).take 2)).map UInt8.ofNat

/-- Two digits are read as a number to the base sixteen. -/
theorem hexNumber?_pair {c d : Char} {high low : Nat} (hc : hexValue? c = some high)
    (hd : hexValue? d = some low) : hexNumber? [c, d] = some (16 * high + low) := by
  have hsign : ¬ [c, d].head? = some '+' := by
    rw [List.head?_cons, Option.some.injEq]
    rintro rfl
    cases hc
  rw [hexNumber?, if_neg hsign, if_neg (List.cons_ne_nil _ _)]
  simp [hc, hd]

/-- A sign makes a pair a number that is none of the forms of a byte. -/
example : hexNumber? "+f".toList = some 15 ∧ ofHex? "+f".toList = none := by decide

/-- Where a text is a hexadecimal form, its pairs are the bytes it stands for. -/
theorem pairAt?_of_ofHex? {l : List Char} {bytes : Bytes} (h : ofHex? l = some bytes) (i : Nat) :
    pairAt? l i = bytes[i]? := by
  induction l using ofHex?.induct generalizing bytes i with
  | case1 =>
    cases h
    simp [pairAt?, hexNumber?]
  | case2 => cases h
  | case3 c d rest ih =>
    rw [ofHex?] at h
    simp only [Option.bind_eq_bind, Option.bind_eq_some_iff] at h
    obtain ⟨high, hhigh, low, hlow, tail, htail, h⟩ := h
    cases h
    cases i with
    | zero =>
      rw [pairAt?, Nat.mul_zero, List.drop_zero, List.take_succ_cons, List.take_succ_cons,
        List.take_zero, hexNumber?_pair hhigh hlow]
      rfl
    | succ i =>
      rw [List.getElem?_cons_succ, ← ih htail i]
      rfl

/-! ## Order -/

/-- Digits are in the order of their values. -/
theorem digitChar_lt_iff : ∀ m < 16, ∀ n < 16, Nat.digitChar m < Nat.digitChar n ↔ m < n := by
  decide

/-- Different digits have different values. -/
theorem digitChar_inj : ∀ m < 16, ∀ n < 16, Nat.digitChar m = Nat.digitChar n ↔ m = n := by
  decide

/-- Of two bytes the greater one has the greater pair of digits, whatever stands behind the two. -/
theorem hexPair_append_lt_iff {s t : List Char} :
    hexPair a ++ s < hexPair b ++ t ↔ a < b ∨ a = b ∧ s < t := by
  have ha := a.toNat_lt
  have hb := b.toNat_lt
  simp only [hexPair, List.cons_append, List.nil_append, List.cons_lt_cons_iff,
    digitChar_lt_iff (a.toNat / 16) (by omega) (b.toNat / 16) (by omega),
    digitChar_lt_iff (a.toNat % 16) (by omega) (b.toNat % 16) (by omega),
    digitChar_inj (a.toNat / 16) (by omega) (b.toNat / 16) (by omega),
    digitChar_inj (a.toNat % 16) (by omega) (b.toNat % 16) (by omega),
    UInt8.lt_iff_toNat_lt, ← UInt8.toNat_inj]
  -- What is left is arithmetic, but for what stands behind the digits.
  by_cases hst : s < t
  · simp only [hst, and_true]
    omega
  · simp only [hst, and_false, or_false]
    omega

/-- The digits of byte strings are in the order of the byte strings. -/
theorem hex_lt_iff : hex x < hex y ↔ x < y := by
  induction x generalizing y with
  | nil =>
    cases y with
    | nil => exact iff_of_false (List.not_lt_nil _) (List.not_lt_nil _)
    | cons b y => exact iff_of_true (List.nil_lt_cons _ _) (List.nil_lt_cons _ _)
  | cons a x ih =>
    cases y with
    | nil => exact iff_of_false (List.not_lt_nil _) (List.not_lt_nil _)
    | cons b y =>
      rw [hex, hex, List.flatMap_cons, List.flatMap_cons, hexPair_append_lt_iff, ← hex, ← hex, ih,
        List.cons_lt_cons_iff]

end Bytes

/-! ## Paths -/

/-- The steps of a path that lead away from where they start. -/
def Path.moves (p : Path) : List String := p.names.filter (· != ".")

/-- Paths to objects tell the ids apart, even if it does not matter how the paths are spelled. -/
theorem Database.eq_of_moves_objectPath {db : Database} {a b : ObjectId}
    (h : (db.objectPath a).moves = (db.objectPath b).moves) : a = b := by
  have hlast : ∀ id : ObjectId, ∃ front,
      (db.objectPath id).moves = front ++ [id.fanOut.1, id.fanOut.2] := by
    intro id
    obtain ⟨front, hnames⟩ := db.names_objectPath id
    have hfan : id.fanOut.1 ≠ "." := id.isName_fan.2.2.2.1
    have hfile : id.fanOut.2 ≠ "." := id.isName_file.2.2.2.1
    refine ⟨front.filter (· != "."), ?_⟩
    rw [Path.moves, hnames, List.filter_append]
    simp [hfan, hfile]
  obtain ⟨front, ha⟩ := hlast a
  obtain ⟨front', hb⟩ := hlast b
  rw [ha, hb] at h
  obtain ⟨-, hparts⟩ := List.append_inj' h rfl
  simp only [List.cons.injEq, and_true] at hparts
  exact ObjectId.fanOut_injective (Prod.ext hparts.1 hparts.2)

/-! ## Ids -/

namespace ObjectId

variable {a b id : ObjectId}

/-- Both ways of reading a text agree on the ids. -/
theorem parse_eq_ok_iff_parse? {text : String} : parse text = .ok id ↔ parse? text = some id := by
  unfold parse
  cases parse? text <;> simp

/-- Forty digits of either case are an id, and nothing else is one. -/
theorem exists_parse_iff {text : String} : (∃ id, parse text = .ok id) ↔
    text.toList.length = 40 ∧ ∀ c ∈ text.toList, Bytes.IsHexDigit c := by
  simp only [← Bytes.isSome_hexValue?_iff]
  rw [← isSome_parse?_iff, Option.isSome_iff_exists]
  exact exists_congr fun id => parse_eq_ok_iff_parse?

/-- The id that a text is read as has the text in lower case. -/
theorem parse_eq_ok_iff {text : String} : parse text = .ok id ↔ id.text = text.toLower := by
  have hlower : text.toLower.toList = text.toList.map Char.toLower := String.toList_map
  rw [parse_eq_ok_iff_parse?, parse?_eq_some_iff, ← String.toList_inj, ObjectId.text,
    String.toList_ofList, hlower]

/-- The bytes of an id, read from its digits again. A pair that was no number would count as
zero. -/
def reread (id : ObjectId) : Bytes :=
  (List.range 20).map fun i => (Bytes.pairAt? id.hex i).getD 0

/-- Every pair of an id's digits is the byte that it was written for. -/
theorem pairAt?_hex (id : ObjectId) (i : Nat) : Bytes.pairAt? id.hex i = id.raw[i]? :=
  Bytes.pairAt?_of_ofHex? (Bytes.ofHex?_hex id.raw) i

/-- There are twenty pairs of digits. -/
theorem isSome_pairAt?_hex (id : ObjectId) {i : Nat} (hi : i < 20) :
    (Bytes.pairAt? id.hex i).isSome = true := by
  rw [pairAt?_hex, List.getElem?_eq_getElem (id.length_raw.symm ▸ hi), Option.isSome_some]

/-- Reading them one after the other gives the bytes of the id. -/
theorem reread_eq (id : ObjectId) : id.reread = id.raw := by
  apply List.ext_getElem
  · rw [reread, List.length_map, List.length_range, id.length_raw]
  · intro i _ hi
    simp only [reread, List.getElem_map, List.getElem_range, pairAt?_hex,
      List.getElem?_eq_getElem hi, Option.getD_some]

/-- Ids in the order of their texts are in the order of their bytes. -/
theorem text_lt_iff : a.text < b.text ↔ a.raw < b.raw := by
  rw [String.lt_iff, text, text, String.toList_ofList, String.toList_ofList]
  exact Bytes.hex_lt_iff

/-- The order of ids is that of their bytes. -/
theorem le_iff : le a b = true ↔ ¬ b.raw < a.raw := by
  rw [le, decide_eq_true_eq, ← String.not_lt, text_lt_iff]

/-- The forms of an id determine one another. Exactly forty hexadecimal digits of either case are
read as an id, which is written with them in lower case. No pair of an id's digits fails to be
read, and the bytes they are read as make that id; twenty bytes of any values make an id, from the
digits of which they are read, and no other number of bytes makes one. An id is taken from the front
of a byte string exactly if its bytes stand there, and the rest is what follows them. Texts of ids
are ordered as their bytes are, and sorting goes by that order. In no database do two ids have one
path, or paths that lead the same way. -/
theorem forms_in_bijection :
    (∀ text, ((∃ id, parse text = .ok id) ↔
        text.toList.length = 40 ∧ ∀ c ∈ text.toList, Bytes.IsHexDigit c) ∧
      ∀ id, parse text = .ok id ↔ id.text = text.toLower) ∧
    (∀ id, (∀ i < 20, (Bytes.pairAt? id.hex i).isSome = true) ∧ ofRaw id.reread = .ok id ∧
      ∀ bytes rest, takeRaw bytes = .ok (id, rest) ↔ bytes = id.reread ++ rest) ∧
    (∀ raw : Bytes, (raw.length = 20 → ∃ id, ofRaw raw = .ok id ∧ id.reread = raw) ∧
      (raw.length ≠ 20 → ofRaw raw = .error (.rawLength raw.length))) ∧
    ∀ a b, (a.text < b.text ↔ a.reread < b.reread) ∧ (le a b = true ↔ ¬ b.reread < a.reread) ∧
      ∀ db : Database, (db.objectPath a = db.objectPath b → a = b) ∧
        ((db.objectPath a).moves = (db.objectPath b).moves → a = b) := by
  simp only [reread_eq]
  refine ⟨fun text => ⟨exists_parse_iff, fun id => parse_eq_ok_iff⟩, fun id => ?_, fun raw => ?_,
    fun a b => ?_⟩
  · exact ⟨fun i hi => id.isSome_pairAt?_hex hi, ofRaw_raw id, fun bytes rest => takeRaw_eq_ok_iff⟩
  · exact ⟨fun hlength => ⟨⟨raw, hlength⟩, dif_pos hlength, rfl⟩, fun hlength => dif_neg hlength⟩
  · refine ⟨text_lt_iff, le_iff, fun db => ⟨fun h => ?_, db.eq_of_moves_objectPath⟩⟩
    exact Database.eq_of_moves_objectPath (congrArg Path.moves h)

/-- The id of the empty blob, written in capital letters. -/
theorem forms_in_bijection_blob :
    let id : ObjectId :=
      ⟨[0xE6, 0x9D, 0xE2, 0x9B, 0xB2, 0xD1, 0xD6, 0x43, 0x4B, 0x8B, 0x29, 0xAE, 0x77, 0x5A, 0xD8,
        0xC2, 0xE4, 0x8C, 0x53, 0x91], rfl⟩
    parse "E69DE29BB2D1D6434B8B29AE775AD8C2E48C5391" = .ok id ∧
      (Bytes.pairAt? id.hex 19).isSome = true ∧
      (∃ made, ofRaw id.raw = .ok made ∧ made.reread = id.raw) ∧
      ofRaw (0 :: id.raw) = .error (.rawLength 21) := by
  intro id
  obtain ⟨hread, hid, hraw, -⟩ := forms_in_bijection
  exact ⟨((hread _).2 id).mpr (by decide +kernel), (hid id).1 19 (by decide),
    (hraw id.raw).1 id.length_raw, (hraw (0 :: id.raw)).2 (by decide)⟩

end ObjectId

end ObjectStore
