import ObjectStore.ObjectId
import ObjectStore.Proofs.Bytes
import ObjectStore.Proofs.Path.Extension

/-!
# The digits of an id

An id is written in lower-case hexadecimal digits and nothing else (`ObjectId.mem_hex`), so its text
has no place for anything that delimits a path, a line or a header. The two names its digits make for
the file of an object are names of files (`isName_fan`, `isName_file`), and they say which id it is
(`fanOut_injective`).

Forty digits of either case are read as the id that is written with them in lower case
(`parse?_eq_some_iff`), and nothing else is read as an id (`isSome_parse?_iff`).

Ids are ordered by their texts. A row of ids in ascending order is determined by what is in it
(`eq_of_mem_iff`), and sorting gives such a row (`pairwise_mergeSort`), whatever the order was before
(`mergeSort_eq_of_perm`).
-/

namespace ObjectStore

/-! ## Digits -/

namespace Bytes

/-- The character of a digit below sixteen has a value. -/
theorem isSome_hexValue?_digitChar : ∀ n < 16, (hexValue? (Nat.digitChar n)).isSome = true := by
  decide

/-- The value of a digit does not depend on its case. -/
theorem hexValue?_toLower (c : Char) : hexValue? c.toLower = hexValue? c := by
  have hascii : ∀ n ≤ 90, hexValue? (Char.ofNat n).toLower = hexValue? (Char.ofNat n) := by decide
  by_cases hc : c.toNat ≤ 90
  · have := hascii c.toNat hc
    rwa [Char.ofNat_toNat] at this
  · have hsame : c.toLower = c := by
      refine dif_neg ?_
      rintro ⟨-, hupper⟩
      exact hc (UInt32.le_iff_toNat_le.mp hupper)
    rw [hsame]

/-- A digit of either case is a digit in lower case. -/
theorem isSome_hexValue?_toLower (c : Char) :
    (hexValue? c.toLower).isSome = (hexValue? c).isSome := by
  rw [hexValue?_toLower]

/-- A digit in lower case is the numeral of its value. -/
theorem digitChar_of_hexValue? {c : Char} {n : Nat} (h : hexValue? c = some n) :
    n < 16 ∧ Nat.digitChar n = c.toLower := by
  have hascii : ∀ m ≤ 102, (hexValue? (Char.ofNat m)).all
      (fun n => decide (n < 16) && Nat.digitChar n == (Char.ofNat m).toLower) = true := by decide
  have hc : c.toNat ≤ 102 := by
    by_contra hlarge
    have hnot : ∀ d : Char, d.toNat ≤ 102 → ¬ c ≤ d := by
      intro d hd hle
      have := UInt32.le_iff_toNat_le.mp (Char.le_def.mp hle)
      exact hlarge (Nat.le_trans this hd)
    rw [hexValue?, if_neg (fun hd => hnot '9' (by decide) hd.2),
      if_neg (fun hd => hnot 'f' (by decide) hd.2),
      if_neg (fun hd => hnot 'F' (by decide) hd.2)] at h
    cases h
  have := hascii c.toNat hc
  rw [Char.ofNat_toNat, h] at this
  simpa using this

/-- Two digits of either case stand for the byte that has them in lower case. -/
theorem hexPair_of_hexValue? {a b : Char} {high low : Nat} (ha : hexValue? a = some high)
    (hb : hexValue? b = some low) :
    hexPair (UInt8.ofNat (16 * high + low)) = [a.toLower, b.toLower] := by
  obtain ⟨hhigh, ha'⟩ := digitChar_of_hexValue? ha
  obtain ⟨hlow, hb'⟩ := digitChar_of_hexValue? hb
  have hbyte : (UInt8.ofNat (16 * high + low)).toNat = 16 * high + low := by
    rw [UInt8.toNat_ofNat']
    omega
  have hdiv : (16 * high + low) / 16 = high := by omega
  have hmod : (16 * high + low) % 16 = low := by omega
  rw [hexPair, hbyte, hdiv, hmod, ha', hb']

/-- The bytes that a hexadecimal form stands for have that form in lower case. -/
theorem hex_of_ofHex? {l : List Char} {b : Bytes} (h : ofHex? l = some b) :
    hex b = l.map Char.toLower := by
  induction l using ofHex?.induct generalizing b with
  | case1 =>
    cases h
    rfl
  | case2 => cases h
  | case3 a c rest ih =>
    rw [ofHex?] at h
    simp only [Option.bind_eq_bind, Option.bind_eq_some_iff] at h
    obtain ⟨high, hhigh, low, hlow, tail, htail, h⟩ := h
    cases h
    rw [hex, List.flatMap_cons, hexPair_of_hexValue? hhigh hlow, ← hex, ih htail]
    rfl

/-- The case of digits makes no difference. -/
theorem ofHex?_map_toLower (l : List Char) : ofHex? (l.map Char.toLower) = ofHex? l := by
  induction l using ofHex?.induct with
  | case1 => rfl
  | case2 => rfl
  | case3 a b rest ih =>
    rw [List.map_cons, List.map_cons, ofHex?, ofHex?, hexValue?_toLower, hexValue?_toLower, ih]

/-- An even number of digits is the hexadecimal form of a byte string. -/
theorem exists_ofHex? {n : Nat} {l : List Char} (hlength : l.length = 2 * n)
    (h : ∀ c ∈ l, (hexValue? c).isSome = true) : ∃ b, ofHex? l = some b := by
  induction l using ofHex?.induct generalizing n with
  | case1 => exact ⟨[], rfl⟩
  | case2 =>
    rw [List.length_singleton] at hlength
    omega
  | case3 a c rest ih =>
    obtain ⟨ha, hrest⟩ := List.forall_mem_cons.mp h
    obtain ⟨hc, hrest⟩ := List.forall_mem_cons.mp hrest
    obtain ⟨high, hhigh⟩ := Option.isSome_iff_exists.mp ha
    obtain ⟨low, hlow⟩ := Option.isSome_iff_exists.mp hc
    rw [List.length_cons, List.length_cons] at hlength
    obtain ⟨tail, htail⟩ := @ih (n - 1) (by omega) hrest
    refine ⟨UInt8.ofNat (16 * high + low) :: tail, ?_⟩
    rw [ofHex?, hhigh, hlow, htail]
    rfl

/-- Two bytes are not written alike. -/
theorem hexPair_injective {a b : UInt8} (h : hexPair a = hexPair b) : a = b := by
  have hread := ofHex?_hexPair a
  rw [h, ofHex?_hexPair, Option.some.injEq, List.cons.injEq] at hread
  exact hread.1.symm

end Bytes

namespace ObjectId

variable (id : ObjectId)

/-- The digits of an id are those of the hexadecimal numerals. -/
theorem mem_hex {c : Char} (h : c ∈ id.hex) : ∃ n < 16, c = Nat.digitChar n := by
  obtain ⟨b, -, hc⟩ := List.mem_flatMap.mp h
  have hb := b.toNat_lt
  simp only [Bytes.hexPair, List.mem_cons, List.not_mem_nil, or_false] at hc
  rcases hc with rfl | rfl
  · exact ⟨b.toNat / 16, by omega, rfl⟩
  · exact ⟨b.toNat % 16, by omega, rfl⟩

/-- A character that is no digit stands in no id. -/
theorem not_mem_hex_of_ne {c : Char} (h : ∀ n < 16, Nat.digitChar n ≠ c) : c ∉ id.hex := by
  intro hmem
  obtain ⟨n, hn, rfl⟩ := id.mem_hex hmem
  exact h n hn rfl

/-- An id is written in digits alone. -/
theorem isSome_hexValue?_of_mem {id : ObjectId} {c : Char} (h : c ∈ id.hex) :
    (Bytes.hexValue? c).isSome = true := by
  obtain ⟨n, hn, rfl⟩ := id.mem_hex h
  exact Bytes.isSome_hexValue?_digitChar n hn

/-- No two ids share a file. -/
theorem fanOut_injective {a b : ObjectId} (h : a.fanOut = b.fanOut) : a = b := by
  obtain ⟨hfan, hrest⟩ := Prod.mk.inj h
  have hfan := congrArg String.toList hfan
  have hrest := congrArg String.toList hrest
  rw [String.toList_ofList, String.toList_ofList] at hfan hrest
  apply hex_injective
  rw [← List.take_append_drop 2 a.hex, hfan, hrest, List.take_append_drop]

/-- The name of the directory is made of digits of the id. -/
theorem mem_hex_of_mem_fan {c : Char} (h : c ∈ id.fanOut.1.toList) : c ∈ id.hex := by
  rw [fanOut, String.toList_ofList] at h
  exact List.mem_of_mem_take h

/-- The name of the file is made of digits of the id. -/
theorem mem_hex_of_mem_file {c : Char} (h : c ∈ id.fanOut.2.toList) : c ∈ id.hex := by
  rw [fanOut, String.toList_ofList] at h
  exact List.mem_of_mem_drop h

/-- The name of the directory is not empty. -/
theorem fan_ne_empty : id.fanOut.1 ≠ "" := by
  rw [fanOut, ne_eq, String.ofList_eq_empty_iff, ← ne_eq, ← List.length_pos_iff, List.length_take,
    id.length_hex]
  decide

/-- The name of the file is not empty. -/
theorem file_ne_empty : id.fanOut.2 ≠ "" := by
  rw [fanOut, ne_eq, String.ofList_eq_empty_iff, ← ne_eq, ← List.length_pos_iff, List.length_drop,
    id.length_hex]
  decide

/-- Digits are a name that can be given to a file or a directory. -/
theorem isName_of_digits {name : String} (hne : name ≠ "")
    (h : ∀ c ∈ name.toList, (Bytes.hexValue? c).isSome = true) : Path.IsName name := by
  have hnot : ∀ c, Bytes.hexValue? c = none → c ∉ name.toList := by
    intro c hc hmem
    have := h c hmem
    rw [hc] at this
    cases this
  refine ⟨hne, hnot '/' (by decide), hnot '\x00' (by decide), Path.isPlain_of_head? fun hdot => ?_⟩
  exact hnot '.' (by decide) (List.mem_of_mem_head? hdot)

/-- The name of the directory is one that a file can have. -/
theorem isName_fan : Path.IsName id.fanOut.1 :=
  isName_of_digits id.fan_ne_empty fun _ hc => isSome_hexValue?_of_mem (id.mem_hex_of_mem_fan hc)

/-- The name of the file is one that a file can have. -/
theorem isName_file : Path.IsName id.fanOut.2 :=
  isName_of_digits id.file_ne_empty fun _ hc => isSome_hexValue?_of_mem (id.mem_hex_of_mem_file hc)

/-! ## Reading ids -/

/-- An id is read from its digits, of either case. -/
theorem parse?_eq_some_iff {text : String} {id : ObjectId} :
    parse? text = some id ↔ id.hex = text.toList.map Char.toLower := by
  constructor
  · intro h
    unfold parse? at h
    split at h
    · rename_i raw hraw
      split_ifs at h
      cases h
      exact Bytes.hex_of_ofHex? hraw
    · cases h
  · intro h
    have hread := Bytes.ofHex?_map_toLower text.toList
    rw [← h, hex, Bytes.ofHex?_hex] at hread
    rw [parse?, ← hread]
    exact dif_pos id.length_raw

/-- Forty digits are an id, and nothing else is one. -/
theorem isSome_parse?_iff {text : String} : (parse? text).isSome = true ↔
    text.toList.length = 40 ∧ ∀ c ∈ text.toList, (Bytes.hexValue? c).isSome = true := by
  rw [Option.isSome_iff_exists]
  constructor
  · rintro ⟨id, h⟩
    rw [parse?_eq_some_iff] at h
    refine ⟨?_, fun c hc => ?_⟩
    · rw [← List.length_map Char.toLower, ← h, id.length_hex]
    · rw [← Bytes.isSome_hexValue?_toLower]
      exact isSome_hexValue?_of_mem (h ▸ List.mem_map_of_mem hc)
  · rintro ⟨hlength, hdigits⟩
    obtain ⟨raw, hraw⟩ := Bytes.exists_ofHex? (n := 20) hlength hdigits
    have hraw' : raw.length = 20 := by
      have := congrArg List.length (Bytes.hex_of_ofHex? hraw)
      rw [Bytes.length_hex, List.length_map] at this
      omega
    exact ⟨⟨raw, hraw'⟩, by rw [parse?, hraw]; exact dif_pos hraw'⟩

/-! ## Ids in order -/

variable {a b : ObjectId}

/-- An id is its text. -/
theorem eq_of_text_eq (h : a.text = b.text) : a = b := hex_injective (String.ofList_inj.mp h)

/-- Sorting ids of which none is there twice gives an ascending row. -/
theorem pairwise_mergeSort {ids : List ObjectId} (h : ids.Nodup) :
    (ids.mergeSort le).Pairwise fun a b => a.text < b.text :=
  pairwise_mergeSort_lt (fun _ _ => rfl) (fun _ _ => eq_of_text_eq) h

/-- What ids are sorted to does not depend on the order they come in. -/
theorem mergeSort_eq_of_perm {ids ids' : List ObjectId} (h : ids.Perm ids') :
    ids.mergeSort le = ids'.mergeSort le := by
  have hsorted := @pairwise_mergeSort_le ObjectId text le fun _ _ => rfl
  refine List.Perm.eq_of_pairwise (fun a b _ _ hle hge => ?_) (hsorted ids) (hsorted ids') ?_
  · exact eq_of_text_eq (String.le_antisymm hle hge)
  · exact (List.mergeSort_perm ids le).trans (h.trans (List.mergeSort_perm ids' le).symm)

/-- In a row that ascends no id is there twice. -/
theorem nodup_of_pairwise {ids : List ObjectId}
    (h : ids.Pairwise fun a b => a.text < b.text) : ids.Nodup := by
  refine h.imp fun {a b} hlt => ?_
  rintro rfl
  exact String.lt_irrefl _ hlt

/-- Two ascending rows of the same ids are one row. -/
theorem eq_of_mem_iff {ids ids' : List ObjectId} (h : ids.Pairwise fun a b => a.text < b.text)
    (h' : ids'.Pairwise fun a b => a.text < b.text) (hmem : ∀ id, id ∈ ids ↔ id ∈ ids') :
    ids = ids' := by
  have hperm : ids.Perm ids' :=
    (List.perm_ext_iff_of_nodup (nodup_of_pairwise h) (nodup_of_pairwise h')).mpr hmem
  exact hperm.eq_of_pairwise
    (fun a b _ _ hlt hgt => absurd (String.lt_trans hlt hgt) (String.lt_irrefl _)) h h'

end ObjectId

end ObjectStore
