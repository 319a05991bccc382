import ObjectStore.Proofs.Database.Directories
import ObjectStore.Proofs.Database.Integrity
import ObjectStore.Proofs.Returned

/-!
# Finding objects by their first digits

What `Database.find` lists, along every run from a fresh root.

* `Repository.Tidy.mem_find_iff`: whichever directories it looks into, `find` comes to the ids whose
  digits start with the given ones and in whose place something stands.
* `Repository.find_returned`: these are the ids that the run returned.
-/

namespace ObjectStore.Repository

variable {repo : Repository} {r : Location} {t t₀ : FileTree} {fan digits : List Char}
variable {id : ObjectId} {name : String}

/-- The names in such a directory are those of the files of objects. -/
theorem Tidy.exists_id_of_mem_namesAt (h : repo.Tidy r t) (hne : fan ≠ [])
    (hfan : ∀ c ∈ fan, (Bytes.hexValue? c).isSome = true)
    (hname : name ∈ t.namesAt (repo.database.objects.join ⟨String.ofList fan⟩)) :
    ∃ id : ObjectId, fan = id.hex.take 2 ∧ name.toList = id.hex.drop 2 ∧
      t.lookup (objectPlace r id) ≠ none := by
  obtain ⟨l, hl, -, hnode⟩ := FileTree.mem_namesAt_iff.mp hname
  have hextends := h.objects_extends.join (String.ofList fan) (Database.isName_ofList hne hfan)
  obtain ⟨-, rfl, -⟩ := (FileTree.locate_extends_eq_ok_iff h.root hextends).mp hl
  obtain ⟨node, hlookup⟩ := Option.ne_none_iff_exists'.mp hnode
  rw [List.append_assoc] at hlookup hnode
  obtain ⟨id, hfst, hsnd⟩ := (h.part _ _ hlookup).exists_id_of_pair
  refine ⟨id, String.ofList_inj.mp hfst, ?_, ?_⟩
  · rw [hsnd, ObjectId.fanOut, String.toList_ofList]
  · rw [objectPlace, ← hfst, ← hsnd]
    exact hnode

/-- The ids found in such a directory are those whose digits start with its name, if they start with
the given ones as well and something stands in their place. -/
theorem Tidy.mem_findIn_iff (h : repo.Tidy r t) (hne : fan ≠ [])
    (hfan : ∀ c ∈ fan, (Bytes.hexValue? c).isSome = true) :
    id ∈ repo.database.findIn t digits fan ↔ fan = id.hex.take 2 ∧ digits <+: id.hex ∧
      t.isDirectory (repo.database.fanPath id) = true ∧ t.lookup (objectPlace r id) ≠ none := by
  rw [Database.findIn, List.mem_filterMap]
  constructor
  · rintro ⟨name, hname, hread⟩
    obtain ⟨other, hfst, hsnd, hnode⟩ := h.exists_id_of_mem_namesAt hne hfan hname
    have hfull : fan ++ name.toList = other.hex := by rw [hfst, hsnd, List.take_append_drop]
    simp only [hfull] at hread
    split_ifs at hread with hstart
    obtain rfl : other = id := by
      have hparse := other.parse?_text
      rw [ObjectId.text, hread, Option.some.injEq] at hparse
      exact hparse.symm
    obtain ⟨l, hl, hdir, -⟩ := FileTree.mem_namesAt_iff.mp hname
    rw [hfst] at hl
    exact ⟨hfst, List.isPrefixOf_iff_prefix.mp hstart,
      FileTree.isDirectory_iff.mpr ⟨l, hl, hdir⟩, hnode⟩
  · rintro ⟨rfl, hstart, hdirectory, hnode⟩
    obtain ⟨l, hl, hdir⟩ := FileTree.isDirectory_iff.mp hdirectory
    obtain ⟨-, rfl, -⟩ := (FileTree.locate_extends_eq_ok_iff h.root (h.fanPath_extends id)).mp hl
    have hfile : t.lookup (r ++ [".git", "objects", id.fanOut.1] ++ [id.fanOut.2]) ≠ none := by
      rwa [List.append_assoc]
    refine ⟨id.fanOut.2, FileTree.mem_namesAt_iff.mpr ⟨_, hl, hdir, hfile⟩, ?_⟩
    have hfull : id.hex.take 2 ++ id.fanOut.2.toList = id.hex := by
      rw [ObjectId.fanOut, String.toList_ofList, List.take_append_drop]
    simp only [hfull, List.isPrefixOf_iff_prefix.mpr hstart, if_true]
    exact id.parse?_text

/-- No id is found there twice. -/
theorem Tidy.nodup_findIn (h : repo.Tidy r t) (hne : fan ≠ [])
    (hfan : ∀ c ∈ fan, (Bytes.hexValue? c).isSome = true) :
    (repo.database.findIn t digits fan).Nodup := by
  rw [Database.findIn, List.Nodup, List.pairwise_filterMap]
  refine (FileTree.nodup_namesAt t _).imp_of_mem fun {name name'} hname hname' hdiffer => ?_
  intro id hid id' hid' hsame
  obtain ⟨a, hfst, hsnd, -⟩ := h.exists_id_of_mem_namesAt hne hfan hname
  obtain ⟨b, hfst', hsnd', -⟩ := h.exists_id_of_mem_namesAt hne hfan hname'
  have hfull : fan ++ name.toList = a.hex := by rw [hfst, hsnd, List.take_append_drop]
  have hfull' : fan ++ name'.toList = b.hex := by rw [hfst', hsnd', List.take_append_drop]
  simp only [hfull] at hid
  simp only [hfull'] at hid'
  split_ifs at hid hid'
  have ha : some a = some id := a.parse?_text.symm.trans hid
  have hb : some b = some id' := b.parse?_text.symm.trans hid'
  have hab : a = b := Option.some.inj (ha.trans (hsame ▸ hb.symm))
  refine hdiffer (String.toList_inj.mp ?_)
  rw [hsnd, hsnd', hab]

/-! ## Finding -/

/-- Whichever directories it looks into, `find` comes to the ids whose digits start with the given
ones and in whose place something stands. -/
theorem Tidy.mem_find_iff (h : repo.Tidy r t) {text : String} :
    id ∈ repo.database.find t text ↔ text.toList.map Char.toLower <+: id.hex ∧
      t.isDirectory (repo.database.fanPath id) = true ∧ t.lookup (objectPlace r id) ≠ none := by
  by_cases hdigits : ∀ c ∈ text.toList.map Char.toLower, (Bytes.hexValue? c).isSome = true
  · rw [Database.find_of_digits hdigits, List.mem_mergeSort, List.mem_flatMap]
    constructor
    · rintro ⟨fan, hfan, hid⟩
      obtain ⟨hne, hchars⟩ := Database.isSome_hexValue?_of_mem_fans hdigits hfan
      exact ((h.mem_findIn_iff hne hchars).mp hid).2
    · intro hid
      have hfan := Database.take_hex_mem_fans hid.1
      obtain ⟨hne, hchars⟩ := Database.isSome_hexValue?_of_mem_fans hdigits hfan
      exact ⟨_, hfan, (h.mem_findIn_iff hne hchars).mpr ⟨rfl, hid⟩⟩
  · -- A character that is no digit stands in no id.
    have hnot : ¬ text.toList.map Char.toLower <+: id.hex := fun hstart =>
      hdigits fun c hc => ObjectId.isSome_hexValue?_of_mem (hstart.subset hc)
    rw [Database.find_of_not_digits hdigits]
    exact iff_of_false List.not_mem_nil fun hid => hnot hid.1

/-- What is found is in ascending order. -/
theorem Tidy.pairwise_find (h : repo.Tidy r t) (text : String) :
    (repo.database.find t text).Pairwise fun a b => a.text < b.text := by
  by_cases hdigits : ∀ c ∈ text.toList.map Char.toLower, (Bytes.hexValue? c).isSome = true
  · rw [Database.find_of_digits hdigits]
    refine ObjectId.pairwise_mergeSort (List.pairwise_flatMap.mpr ⟨fun fan hfan => ?_, ?_⟩)
    · obtain ⟨hne, hchars⟩ := Database.isSome_hexValue?_of_mem_fans hdigits hfan
      exact h.nodup_findIn hne hchars
    · -- An id is in one directory only.
      refine (Database.nodup_fans _).imp_of_mem fun {fan fan'} hfan hfan' hdiffer => ?_
      intro id hid id' hid' hsame
      obtain ⟨hne, hchars⟩ := Database.isSome_hexValue?_of_mem_fans hdigits hfan
      obtain ⟨hne', hchars'⟩ := Database.isSome_hexValue?_of_mem_fans hdigits hfan'
      refine hdiffer ?_
      rw [((h.mem_findIn_iff hne hchars).mp hid).1, ((h.mem_findIn_iff hne' hchars').mp hid').1,
        hsame]
  · rw [Database.find_of_not_digits hdigits]
    exact List.Pairwise.nil

/-- In the place of an id stands something exactly if the run stored an object under it. -/
theorem IsFresh.exists_stored_iff (hfresh : repo.IsFresh r t₀) {ops : List Operation}
    (ht : repo.run ops t₀ = t) :
    (t.isDirectory (repo.database.fanPath id) = true ∧ t.lookup (objectPlace r id) ≠ none) ↔
      ∃ object ∈ repo.stored ops t₀, Canonical.idOf object.kind object.payload = id := by
  have hat := hfresh.toIsAt.run ops
  rw [ht] at hat
  constructor
  · rintro ⟨-, hnode⟩
    obtain ⟨node, hlookup⟩ := Option.ne_none_iff_exists'.mp hnode
    have hsound := hfresh.sound.run ops
    rw [List.nil_append, ht] at hsound
    obtain ⟨object, hmem, -, hid, -⟩ := hsound.object id node hlookup
    exact ⟨object, hmem, hid⟩
  · rintro ⟨object, hmem, rfl⟩
    obtain ⟨-, hpresent⟩ := hfresh.isPresent_of_mem_stored hmem
    rw [ht] at hpresent
    obtain ⟨l, node, hl, hnode⟩ := FileTree.isPresent_iff.mp hpresent
    obtain rfl := hat.eq_of_locate_objectPath hl
    -- What leads to the file leads to its directory.
    have hfan := hat.fanPath_extends (Canonical.idOf object.kind object.payload)
    have hfile := Path.extends_join_name hfan.text_ne
      (Canonical.idOf object.kind object.payload).isName_file
    rw [Database.objectPath_eq] at hl
    obtain ⟨directory, hdirectory⟩ :=
      FileTree.locate_of_extends hl hfile (List.cons_ne_nil _ _) hfan.text_ne
    refine ⟨FileTree.isDirectory_iff.mpr ⟨directory, hdirectory⟩, ?_⟩
    rw [hnode]
    exact Option.some_ne_none _

/-- An object is in the database exactly if the run stored one under its id. -/
theorem IsFresh.contains_iff (hfresh : repo.IsFresh r t₀) {ops : List Operation}
    (ht : repo.run ops t₀ = t) : repo.database.contains t id = true ↔
      ∃ object ∈ repo.stored ops t₀, Canonical.idOf object.kind object.payload = id := by
  have hat := hfresh.toIsAt.run ops
  have hsound := hfresh.sound.run ops
  rw [List.nil_append] at hsound
  rw [ht] at hat hsound
  constructor
  · intro hfile
    obtain ⟨l, content, hl, hlookup⟩ := FileTree.isFile_iff.mp hfile
    obtain rfl := hat.eq_of_locate_objectPath hl
    obtain ⟨object, hmem, -, hid, -⟩ := hsound.object id _ hlookup
    exact ⟨object, hmem, hid⟩
  · rintro ⟨object, hmem, rfl⟩
    obtain ⟨-, hpresent⟩ := hfresh.isPresent_of_mem_stored hmem
    rw [ht] at hpresent
    obtain ⟨l, node, hl, hnode⟩ := FileTree.isPresent_iff.mp hpresent
    obtain rfl := hat.eq_of_locate_objectPath hl
    obtain ⟨_, -, -, -, rfl⟩ := hsound.object _ node hnode
    exact FileTree.isFile_iff.mpr ⟨_, _, hl, hnode⟩

/-- After any run from a fresh root, what is found for a text is an ascending row of exactly the ids
that operations of the run returned and whose digits start with that text in lower case. Nothing is
found for a text that is not of digits. So looking into one directory gives what looking into all of
them and leaving out the other ids gives. -/
theorem find_returned (hfresh : repo.IsFresh r t₀) (ops : List Operation)
    (ht : repo.run ops t₀ = t) (text : String) :
    ((repo.database.find t text).Pairwise fun a b => a.text < b.text) ∧
    (∀ id, id ∈ repo.database.find t text ↔
      text.toList.map Char.toLower <+: id.hex ∧
        ∃ before op after, ops = before ++ op :: after ∧
          op.Returns repo (repo.run before t₀) id) ∧
    ((∃ c ∈ text.toList, Bytes.hexValue? c = none) → repo.database.find t text = []) ∧
    repo.database.find t text = (repo.database.find t "").filter fun id =>
      (text.toList.map Char.toLower).isPrefixOf id.hex := by
  have htidy := hfresh.tidy.run ops
  rw [ht] at htidy
  refine ⟨htidy.pairwise_find text, fun id => ?_, ?_, ?_⟩
  · rw [htidy.mem_find_iff, exists_returns_iff, hfresh.exists_stored_iff ht]
  · rintro ⟨c, hc, hdigit⟩
    refine Database.find_of_not_digits fun hall => ?_
    have hlower := hall _ (List.mem_map_of_mem hc)
    rw [Bytes.isSome_hexValue?_toLower, hdigit] at hlower
    cases hlower
  · refine ObjectId.eq_of_mem_iff (htidy.pairwise_find text) ((htidy.pairwise_find "").filter _) ?_
    intro id
    rw [List.mem_filter, htidy.mem_find_iff, htidy.mem_find_iff, List.isPrefixOf_iff_prefix,
      and_comm]
    refine and_congr_left fun _ => (and_iff_right ?_).symm
    exact List.nil_prefix

/-- Two blobs, one of them looked for by digits in upper case. -/
theorem find_returned_upper :
    let repo : Repository := ⟨⟨"/"⟩, {}⟩
    let ops : List Operation := [⟨5, .writeBlob []⟩, ⟨5, .writeBlob [1]⟩]
    let t := repo.run ops FileTree.empty
    let id := Canonical.idOf "blob" []
    repo.IsFresh [] FileTree.empty ∧ repo.run ops FileTree.empty = t ∧
      id ∈ repo.database.find t "E69" ∧ repo.database.find t "E6z" = [] ∧
      (repo.database.find t "").Pairwise fun a b => a.text < b.text := by
  intro repo ops t id
  have hfresh : repo.IsFresh [] FileTree.empty := isFresh_empty rfl
  obtain ⟨hstart, hreturns⟩ : "E69".toList.map Char.toLower <+: id.hex ∧
      (repo.writeBlob 5 [] FileTree.empty).1 = .ok id := by decide +kernel
  obtain ⟨-, hmem, -⟩ := find_returned hfresh ops (t := t) rfl "E69"
  obtain ⟨-, -, hnone, -⟩ := find_returned hfresh ops (t := t) rfl "E6z"
  obtain ⟨hascends, -⟩ := find_returned hfresh ops (t := t) rfl ""
  have hreturned : ∃ before op after, ops = before ++ op :: after ∧
      op.Returns repo (repo.run before FileTree.empty) id :=
    ⟨[], ⟨5, .writeBlob []⟩, [⟨5, .writeBlob [1]⟩], rfl, hreturns⟩
  exact ⟨hfresh, rfl, (hmem id).mpr ⟨hstart, hreturned⟩, hnone ⟨'z', by decide, by decide⟩,
    hascends⟩

end ObjectStore.Repository
