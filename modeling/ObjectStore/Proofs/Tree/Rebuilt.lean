import ObjectStore.Proofs.Tree.RoundTrip

/-!
# Trees built again

Of the mode of an entry only the value is written, so the entry reads back with the mode that has
this value (`TreeEntry.reread`). That is the mode it was built with, or one that is written the
same; but the value of directories may have been kept as another mode, and then an entry was put in
its place as a file and reads back as a directory.

* `Tree.decode_encode_reread`: a tree reads back with every entry reread.
* `Tree.encode_rebuilt_iff`: what is built of the entries that were read is written the same exactly
  if the row was ascending by the values of the modes.
* `Tree.pairwise_of_build`: it is, unless the value of directories was kept as another mode.

Together they give `Tree.rebuild_of_build`, and `Tree.rebuild_other_directory` is a tree that is not
the same when it is built again.
-/

namespace ObjectStore

/-! ## Entries read back -/

namespace TreeEntry

variable (entry : TreeEntry)

/-- An entry as it reads back, with the mode that has the value written of it. -/
def reread : TreeEntry := { entry with mode := EntryMode.ofValue entry.mode.value }

/-- Reading an entry back keeps its name. -/
@[simp] theorem name_reread : entry.reread.name = entry.name := rfl

/-- Reading an entry back keeps the value of its mode. -/
@[simp] theorem value_reread : entry.reread.mode.value = entry.mode.value :=
  EntryMode.value_ofValue entry.mode.value

/-- The mode of an entry that was read back can be given. -/
theorem isGiven_reread : entry.reread.mode.IsGiven := .ofValue entry.mode.value

/-- Nothing that is written of an entry changes, nor what it is compared by. -/
@[simp] theorem record_reread : entry.reread.record = entry.record := by
  simp only [record, EntryMode.octal, value_reread]
  rfl

/-- Reading an entry back keeps what it is compared by. -/
@[simp] theorem collated_reread : entry.reread.collated = entry.collated := by
  simp only [collated, value_reread, name_reread]

end TreeEntry

namespace Tree

variable {entries : List TreeEntry} {tree rebuilt : Tree}

/-- A tree as it reads back. -/
def reread (tree : Tree) : Tree := ⟨tree.entries.map TreeEntry.reread⟩

/-- All modes of a tree that was read back can be given. -/
theorem isGiven_of_mem_reread {entry : TreeEntry} (h : entry ∈ tree.reread.entries) :
    entry.mode.IsGiven := by
  obtain ⟨entry, -, rfl⟩ := List.mem_map.mp h
  exact entry.isGiven_reread

/-- A tree that was read back is written as before. -/
@[simp] theorem encode_reread (tree : Tree) : tree.reread.encode = tree.encode := by
  rw [encode, reread, List.flatMap_map, encode]
  exact List.flatMap_congr fun entry _ => entry.record_reread

/-- A tree that was read back is in order exactly if the tree was. -/
theorem pairwise_reread_iff : tree.reread.entries.Pairwise (·.collated < ·.collated) ↔
    tree.entries.Pairwise (·.collated < ·.collated) := by
  simp only [reread, List.pairwise_map, TreeEntry.collated_reread]

/-- The entries of a tree that was read back are accepted if those of the tree are. -/
theorem Accepts.reread (h : Accepts tree.entries) : Accepts tree.reread.entries where
  isName := List.forall_mem_map.mpr h.isName
  nodup := by
    have hnames : TreeEntry.name ∘ TreeEntry.reread = TreeEntry.name := rfl
    rw [Tree.reread, List.map_map, hnames]
    exact h.nodup

/-- A tree of modes that were come by and accepted names reads back as it was written. -/
theorem decode_encode_of_modes (h : Accepts tree.entries)
    (hmodes : ∀ entry ∈ tree.entries, entry.mode.IsGiven) : decode tree.encode = .ok tree := by
  obtain ⟨records, hrecords⟩ := exists_records fun entry hm =>
    ⟨hmodes entry hm, (h.isName entry hm).2.2.1⟩
  exact decode_encode_of_records hrecords

/-- Every other tree of accepted names reads back with the modes of the values that were written. -/
theorem decode_encode_reread (h : Accepts tree.entries) :
    decode tree.encode = .ok tree.reread := by
  rw [← encode_reread]
  exact decode_encode_of_modes h.reread fun _ => isGiven_of_mem_reread

/-! ## Built again -/

/-- The entries of a tree that was built are accepted. -/
theorem accepts_of_build (h : build entries = .ok tree) : Accepts tree.entries := by
  obtain ⟨haccepts, hentries⟩ := build_eq_ok_iff.mp h
  rw [hentries]
  exact haccepts.of_perm (List.mergeSort_perm entries _)

/-- Entries are put in ascending order by the values of their modes, unless the value of directories
is kept as another mode. -/
theorem pairwise_of_build (h : build entries = .ok tree)
    (hmodes : ∀ entry ∈ entries, entry.mode ≠ .other 0o40000) :
    tree.entries.Pairwise (·.collated < ·.collated) := by
  obtain ⟨haccepts, hentries⟩ := build_eq_ok_iff.mp h
  rw [hentries]
  exact haccepts.pairwise_mergeSort fun entry hm =>
    TreeEntry.sortKey_eq_collated (hmodes entry hm)

/-- What is built of the entries that were read is written as they were exactly if they stood in
ascending order by the values of their modes. -/
theorem encode_rebuilt_iff (h : Accepts tree.entries)
    (hrebuilt : build tree.reread.entries = .ok rebuilt) :
    rebuilt.encode = tree.encode ↔ tree.entries.Pairwise (·.collated < ·.collated) := by
  obtain ⟨hperm, hascends⟩ := ascends_of_build (fun _ => isGiven_of_mem_reread) hrebuilt
  rw [← pairwise_reread_iff]
  constructor
  · intro hsame
    -- both trees read back from the one payload
    have hmodes : ∀ entry ∈ rebuilt.entries, entry.mode.IsGiven := fun entry hm =>
      isGiven_of_mem_reread (hperm.mem_iff.mp hm)
    have hread := decode_encode_of_modes (accepts_of_build hrebuilt) hmodes
    rw [hsame, decode_encode_reread h, Except.ok.injEq] at hread
    rw [hread]
    exact hascends
  · intro hrow
    have hentries : rebuilt.entries = tree.reread.entries :=
      eq_of_perm_of_pairwise hascends hrow hperm
    rw [encode, hentries, ← encode, encode_reread]

/-- The payload of every tree that was built decodes, and a tree can be built of what it decodes to.
That tree has the same payload, and with it the same id, exactly if the entries were put in
ascending order by the values of their modes. So they were, unless the value of directories was kept
as another mode. -/
theorem rebuild_of_build (h : build entries = .ok tree) :
    ∃ read rebuilt, decode tree.encode = .ok read ∧ build read.entries = .ok rebuilt ∧
      (rebuilt.encode = tree.encode ↔ tree.entries.Pairwise (·.collated < ·.collated)) ∧
      (tree.entries.Pairwise (·.collated < ·.collated) → rebuilt.id = tree.id) ∧
      ((∀ entry ∈ entries, entry.mode ≠ .other 0o40000) →
        rebuilt.encode = tree.encode ∧ rebuilt.id = tree.id) := by
  have haccepts := accepts_of_build h
  obtain ⟨rebuilt, hrebuilt⟩ := exists_build_eq_ok_iff.mpr haccepts.reread
  have hencode := encode_rebuilt_iff haccepts hrebuilt
  have hid : rebuilt.encode = tree.encode → rebuilt.id = tree.id := by
    intro hsame
    rw [Tree.id, hsame, Tree.id]
  refine ⟨tree.reread, rebuilt, decode_encode_reread haccepts, hrebuilt, hencode,
    fun hrow => hid (hencode.mpr hrow), fun hmodes => ?_⟩
  have hsame := hencode.mpr (pairwise_of_build h hmodes)
  exact ⟨hsame, hid hsame⟩

/-- Entries that stand in order already are built as they stand. -/
theorem build_of_pairwise (h : Accepts entries) (hrow : entries.Pairwise fun a b => a.le b = true) :
    build entries = .ok ⟨entries⟩ :=
  build_eq_ok_iff.mpr ⟨h, (List.mergeSort_of_pairwise hrow).symm⟩

/-- A file and a directory with the values of known modes kept as other ones. The directory is put
behind the file as a name without a slash, and would be put there with one. -/
theorem rebuild_of_build_others :
    let id : ObjectId := ⟨List.replicate 20 0, rfl⟩
    let tree : Tree := ⟨[⟨.other 0o100644, "a", id⟩, ⟨.other 0o40000, "b", id⟩]⟩
    let linked : Tree := ⟨[⟨.other 0o100644, "a", id⟩, ⟨.symlink, "b.txt", id⟩]⟩
    (∃ read rebuilt, build tree.entries = .ok tree ∧ decode tree.encode = .ok read ∧ read ≠ tree ∧
        build read.entries = .ok rebuilt ∧ rebuilt.encode = tree.encode) ∧
      ∃ read rebuilt, build linked.entries = .ok linked ∧ decode linked.encode = .ok read ∧
        build read.entries = .ok rebuilt ∧ rebuilt.id = linked.id := by
  intro id tree linked
  have hbuild : build tree.entries = .ok tree :=
    build_of_pairwise ⟨by decide, by decide⟩ (by decide +kernel)
  have hlinked : build linked.entries = .ok linked :=
    build_of_pairwise ⟨by decide, by decide⟩ (by decide +kernel)
  constructor
  · obtain ⟨read, rebuilt, hread, hrebuilt, hsame, -⟩ := rebuild_of_build hbuild
    refine ⟨read, rebuilt, hbuild, hread, ?_, hrebuilt, hsame.mpr (by decide +kernel)⟩
    rintro rfl
    have hother : decode tree.encode ≠ .ok tree := by decide +kernel
    exact hother hread
  · obtain ⟨read, rebuilt, hread, hrebuilt, -, -, hmodes⟩ := rebuild_of_build hlinked
    exact ⟨read, rebuilt, hlinked, hread, hrebuilt, (hmodes (by decide)).2⟩

/-- A tree with the value of directories kept as another mode, which is another tree once it is
built again: the entry was put in front of a name that goes on with a dot, and a directory comes
behind it. -/
theorem rebuild_other_directory :
    let id : ObjectId := ⟨List.replicate 20 0, rfl⟩
    let tree : Tree := ⟨[⟨.other 0o40000, "a", id⟩, ⟨.regular, "a.b", id⟩]⟩
    let read : Tree := ⟨[⟨.directory, "a", id⟩, ⟨.regular, "a.b", id⟩]⟩
    let rebuilt : Tree := ⟨[⟨.regular, "a.b", id⟩, ⟨.directory, "a", id⟩]⟩
    build tree.entries = .ok tree ∧ decode tree.encode = .ok read ∧
      build read.entries = .ok rebuilt ∧ rebuilt.encode ≠ tree.encode ∧ rebuilt.id ≠ tree.id := by
  intro id tree read rebuilt
  have hbuild : build tree.entries = .ok tree :=
    build_of_pairwise ⟨by decide, by decide⟩ (by decide +kernel)
  have hordered : build rebuilt.entries = .ok rebuilt :=
    build_of_pairwise ⟨by decide, by decide⟩ (by decide +kernel)
  have hmodes : ∀ entry ∈ rebuilt.entries, entry.mode.IsGiven :=
    List.forall_mem_cons.mpr ⟨.ofValue 0o100644, List.forall_mem_singleton.mpr (.ofValue 0o40000)⟩
  have hrebuilt : build read.entries = .ok rebuilt :=
    build_of_perm hmodes (List.Perm.swap _ _ _) hordered
  obtain ⟨hread, hencode, hid⟩ : decode tree.encode = .ok read ∧
      rebuilt.encode ≠ tree.encode ∧ rebuilt.id ≠ tree.id := by decide +kernel
  exact ⟨hbuild, hread, hrebuilt, hencode, hid⟩

end Tree

end ObjectStore
