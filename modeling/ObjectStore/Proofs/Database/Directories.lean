import ObjectStore.Database
import ObjectStore.Proofs.ObjectId

/-!
# The directories that are looked into

`Database.find` looks for ids in one directory or in all that object files may lie in, as many as it
has to (`Database.fans`). Their names are digits, each is there once (`nodup_fans`), and that of an
id's own file is among them (`take_hex_mem_fans`).
-/

namespace ObjectStore.Database

variable {fan digits : List Char} {id : ObjectId}

/-- A row of digits is a name. -/
theorem isName_ofList (hne : fan ≠ []) (h : ∀ c ∈ fan, (Bytes.hexValue? c).isSome = true) :
    Path.IsName (String.ofList fan) := by
  refine ObjectId.isName_of_digits (by rwa [ne_eq, String.ofList_eq_empty_iff]) ?_
  rwa [String.toList_ofList]

/-- The first two digits of an id are those of its first byte. -/
theorem exists_take_hex (id : ObjectId) : ∃ b, id.hex.take 2 = Bytes.hexPair b := by
  obtain ⟨b, rest, hraw⟩ := List.exists_cons_of_length_pos (by rw [id.length_raw]; decide)
  refine ⟨b, ?_⟩
  rw [ObjectId.hex, hraw]
  rfl

/-- The first two digits of an id are among the names of the directories. -/
theorem take_hex_mem_fanNames (id : ObjectId) : id.hex.take 2 ∈ fanNames := by
  obtain ⟨b, hb⟩ := exists_take_hex id
  rw [hb]
  exact List.mem_map.mpr ⟨b.toNat, List.mem_range.mpr b.toNat_lt, by simp⟩

/-- The names of the directories are rows of digits. -/
theorem isSome_hexValue?_of_mem_fanNames (h : fan ∈ fanNames) :
    fan ≠ [] ∧ ∀ c ∈ fan, (Bytes.hexValue? c).isSome = true := by
  obtain ⟨n, -, rfl⟩ := List.mem_map.mp h
  refine ⟨List.cons_ne_nil _ _, ?_⟩
  have hlt := (UInt8.ofNat n).toNat_lt
  rw [Bytes.hexPair, List.forall_mem_cons, List.forall_mem_singleton]
  constructor
  · exact Bytes.isSome_hexValue?_digitChar _ (by omega)
  · exact Bytes.isSome_hexValue?_digitChar _ (by omega)

/-- No name is tried twice. -/
theorem nodup_fanNames : fanNames.Nodup := by
  rw [fanNames, List.Nodup, List.pairwise_map]
  refine List.nodup_range.imp_of_mem fun {m n} hm hn hne h => hne ?_
  have hbyte := congrArg UInt8.toNat (Bytes.hexPair_injective h)
  rw [List.mem_range] at hm hn
  simp only [UInt8.toNat_ofNat'] at hbyte
  omega

/-- The directories that are looked into for ids with these first digits. -/
def fans (digits : List Char) : List (List Char) :=
  if 2 ≤ digits.length then [digits.take 2] else fanNames

/-- No directory is looked at twice. -/
theorem nodup_fans (digits : List Char) : (fans digits).Nodup := by
  unfold fans
  split_ifs
  · exact List.pairwise_singleton _ _
  · exact nodup_fanNames

/-- Digits name such a directory. -/
theorem isSome_hexValue?_of_mem_fans (h : ∀ c ∈ digits, (Bytes.hexValue? c).isSome = true)
    (hfan : fan ∈ fans digits) : fan ≠ [] ∧ ∀ c ∈ fan, (Bytes.hexValue? c).isSome = true := by
  unfold fans at hfan
  split_ifs at hfan with hlength
  · obtain rfl := List.mem_singleton.mp hfan
    refine ⟨?_, fun c hc => h c (List.mem_of_mem_take hc)⟩
    rw [← List.length_pos_iff, List.length_take]
    omega
  · exact isSome_hexValue?_of_mem_fanNames hfan

/-- The directory of an object is among those that are looked into for it. -/
theorem take_hex_mem_fans (h : digits <+: id.hex) : id.hex.take 2 ∈ fans digits := by
  unfold fans
  split_ifs with hlength
  · obtain ⟨rest, hrest⟩ := h
    rw [← hrest, List.take_append_of_le_length hlength]
    exact List.mem_singleton_self _
  · exact take_hex_mem_fanNames id

/-- Nothing is found for a text that is not of digits. -/
theorem find_of_not_digits {db : Database} {t : FileTree} {text : String}
    (h : ¬ ∀ c ∈ text.toList.map Char.toLower, (Bytes.hexValue? c).isSome = true) :
    db.find t text = [] :=
  if_neg fun hall => h (List.all_eq_true.mp hall)

/-- Otherwise what is found in each of the directories is put in order. -/
theorem find_of_digits {db : Database} {t : FileTree} {text : String}
    (h : ∀ c ∈ text.toList.map Char.toLower, (Bytes.hexValue? c).isSome = true) :
    db.find t text = ((fans (text.toList.map Char.toLower)).flatMap
      (db.findIn t (text.toList.map Char.toLower))).mergeSort ObjectId.le :=
  if_pos (List.all_eq_true.mpr h)

end ObjectStore.Database
