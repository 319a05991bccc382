import ObjectStore.Proofs.Path.Extension
import ObjectStore.Proofs.Separators
import ObjectStore.Tree

/-!
# The canonical order of a tree

A directory is compared as if a slash followed its name, so the place of an entry depends on its
mode as well as on its name. `TreeEntry.collated` is the text that is compared, said by the value
of the mode alone.

* `Tree.firstFault_eq_none_iff`: entries are accepted exactly if their names are single segments
  and no two are the same.
* `TreeEntry.name_eq_of_collated_eq`: a name is never another one with a slash behind it, so
  entries of different names are never level.
* `Tree.eq_of_perm_of_pairwise`: hence there is one ascending row of given entries.

Together they give `Tree.build_canonical`: what is built of entries is the one ascending row of
them, in whichever order they come.
-/

namespace ObjectStore

/-! ## What is compared -/

/-- The modes a program can come by: those of a value and those read from digits. -/
inductive EntryMode.IsGiven : EntryMode → Prop
  | ofValue (value : UInt32) : IsGiven (EntryMode.ofValue value)
  | ofOctal {text : String} {mode : EntryMode} (h : EntryMode.ofOctal text = .ok mode) :
    IsGiven mode

/-- A mode that was come by is the mode of its value. -/
theorem EntryMode.IsGiven.ofValue_value {mode : EntryMode} (h : mode.IsGiven) :
    EntryMode.ofValue mode.value = mode := by
  cases h with
  | ofValue value => rw [value_ofValue]
  | @ofOctal text mode h =>
    unfold EntryMode.ofOctal at h
    split at h
    · cases h
    · split at h
      · cases h
        rw [value_ofValue]
      · cases h

/-- No mode but the directory one has the value of directories, unless that value is kept as another
one. -/
theorem EntryMode.isTree_iff {mode : EntryMode} (h : mode ≠ .other 0o40000) :
    mode.isTree = true ↔ mode.value = 0o40000 := by
  rw [EntryMode.isTree, decide_eq_true_iff]
  cases mode with
  | other value => simpa [EntryMode.value] using h
  | _ => decide

/-- No mode that was come by keeps the value of directories as another one. -/
theorem EntryMode.IsGiven.ne_other {mode : EntryMode} (h : mode.IsGiven) :
    mode ≠ .other 0o40000 := by
  rintro rfl
  have hvalue := h.ofValue_value
  revert hvalue
  decide

namespace TreeEntry

variable {a b : TreeEntry}

/-- The bytes an entry is compared by: its name, and a slash behind it if the value of its mode is
that of directories. -/
def collated (entry : TreeEntry) : Bytes :=
  Bytes.ofString (if entry.mode.value = 0o40000 then entry.name ++ "/" else entry.name)

/-- Entries are sorted as if the names of directories ended in a slash, but for one variant of the
mode. -/
theorem sortKey_eq_collated (h : a.mode ≠ .other 0o40000) : a.sortKey = a.collated := by
  have hvalue := EntryMode.isTree_iff h
  unfold sortKey collated
  by_cases htree : a.mode.isTree = true
  · rw [if_pos htree, if_pos (hvalue.mp htree), Bytes.ofString_append]
    rfl
  · rw [if_neg htree, if_neg (mt hvalue.mpr htree)]

/-- Two names without slashes are told apart by what is compared, whatever the modes. -/
theorem name_eq_of_collated_eq (ha : '/' ∉ a.name.toList) (hb : '/' ∉ b.name.toList)
    (h : a.collated = b.collated) : a.name = b.name := by
  have htext := Bytes.ofString_injective h
  have hslash : ∀ name : String, '/' ∈ (name ++ "/").toList := by
    intro name
    simp
  split_ifs at htext
  · rw [← String.toList_inj, String.toList_append, String.toList_append] at htext
    exact String.toList_inj.mp (List.append_cancel_right htext)
  · exact absurd (htext ▸ hslash a.name) hb
  · exact absurd (htext ▸ hslash b.name) ha
  · exact htext

/-- A valid name of an entry is one that a file can have. -/
theorem hasValidName_iff (entry : TreeEntry) :
    entry.hasValidName = true ↔ Path.IsName entry.name := by
  have hall : (entry.name.toList.all fun c => c != '/' && c != '\x00') = true ↔
      '/' ∉ entry.name.toList ∧ '\x00' ∉ entry.name.toList := by
    rw [List.all_eq_true]
    constructor
    · intro h
      refine ⟨fun hm => ?_, fun hm => ?_⟩
      · simpa using h _ hm
      · simpa using h _ hm
    · rintro ⟨hslash, hnul⟩ c hc
      rw [Bool.and_eq_true, bne_iff_ne, bne_iff_ne]
      exact ⟨fun h => hslash (h ▸ hc), fun h => hnul (h ▸ hc)⟩
  unfold hasValidName Path.IsName Path.IsPlain
  rw [Bool.and_eq_true, Bool.and_eq_true, Bool.and_eq_true, bne_iff_ne, bne_iff_ne, bne_iff_ne,
    hall]
  tauto

/-- Entries can always be compared, and comparing them is transitive. -/
theorem le_total (a b : TreeEntry) : (a.le b || b.le a) = true := by
  rw [Bool.or_eq_true, le, le, decide_eq_true_iff, decide_eq_true_iff]
  exact List.le_total a.sortKey b.sortKey

/-- The order of entries is transitive. -/
theorem le_trans (a b c : TreeEntry) (hab : a.le b = true) (hbc : b.le c = true) :
    a.le c = true := by
  rw [le, decide_eq_true_iff] at hab hbc ⊢
  exact List.le_trans hab hbc

end TreeEntry

namespace Tree

variable {entries : List TreeEntry} {tree : Tree}

/-! ## Which entries are accepted -/

/-- Entries that a tree can be made of: every name is a single segment, and no two are the same. -/
structure Accepts (entries : List TreeEntry) : Prop where
  isName : ∀ entry ∈ entries, Path.IsName entry.name
  nodup : (entries.map TreeEntry.name).Nodup

/-- No entries are accepted. -/
theorem accepts_nil : Accepts [] :=
  ⟨fun _ h => absurd h List.not_mem_nil, List.nodup_nil⟩

/-- An entry is accepted if its name is valid and no other one has it. -/
theorem accepts_cons_iff {entry : TreeEntry} {rest : List TreeEntry} :
    Accepts (entry :: rest) ↔
      Path.IsName entry.name ∧ (∀ other ∈ rest, other.name ≠ entry.name) ∧ Accepts rest := by
  have hfresh : entry.name ∉ rest.map TreeEntry.name ↔
      ∀ other ∈ rest, other.name ≠ entry.name := by
    rw [List.mem_map]
    exact ⟨fun h other hm heq => h ⟨other, hm, heq⟩, fun h ⟨other, hm, heq⟩ => h other hm heq⟩
  constructor
  · rintro ⟨hnames, hnodup⟩
    rw [List.map_cons, List.nodup_cons, hfresh] at hnodup
    rw [List.forall_mem_cons] at hnames
    exact ⟨hnames.1, hnodup.1, hnames.2, hnodup.2⟩
  · rintro ⟨hname, hother, hrest⟩
    refine ⟨List.forall_mem_cons.mpr ⟨hname, hrest.isName⟩, ?_⟩
    rw [List.map_cons, List.nodup_cons, hfresh]
    exact ⟨hother, hrest.nodup⟩

/-- Nothing is found wrong with entries exactly if they are accepted and none of their names was
used before. -/
theorem firstFault_eq_none_iff (seen : List String) (entries : List TreeEntry) :
    firstFault seen entries = none ↔
      Accepts entries ∧ ∀ entry ∈ entries, entry.name ∉ seen := by
  induction entries generalizing seen with
  | nil => exact iff_of_true rfl ⟨accepts_nil, fun _ h => absurd h List.not_mem_nil⟩
  | cons entry rest ih =>
    rw [firstFault, accepts_cons_iff, List.forall_mem_cons]
    by_cases hname : entry.hasValidName = true
    · rw [if_neg (by rw [hname]; decide)]
      by_cases hseen : entry.name ∈ seen
      · rw [if_pos hseen]
        exact iff_of_false (by simp) fun h => h.2.1 hseen
      · rw [if_neg hseen, ih]
        -- what must not come again is now this name and the ones before
        have hsplit : (∀ other ∈ rest, other.name ∉ entry.name :: seen) ↔
            (∀ other ∈ rest, other.name ≠ entry.name) ∧ ∀ other ∈ rest, other.name ∉ seen := by
          simp only [List.mem_cons, not_or]
          exact forall₂_and
        rw [hsplit]
        have hname := entry.hasValidName_iff.mp hname
        tauto
    · rw [if_pos (by simpa using hname)]
      exact iff_of_false (by simp) fun h => hname (entry.hasValidName_iff.mpr h.1.1)

/-- Building gives the sorted row of the entries if they are accepted, and fails otherwise. -/
theorem build_eq_ok_iff :
    build entries = .ok tree ↔ Accepts entries ∧ tree.entries = entries.mergeSort TreeEntry.le := by
  have hnone := firstFault_eq_none_iff [] entries
  unfold build
  split
  · rename_i fault hfault
    refine iff_of_false (by simp) ?_
    rintro ⟨haccepts, -⟩
    rw [hnone.mpr ⟨haccepts, fun _ _ => List.not_mem_nil⟩] at hfault
    cases hfault
  · rename_i hfault
    rw [Except.ok.injEq]
    constructor
    · rintro rfl
      exact ⟨(hnone.mp hfault).1, rfl⟩
    · rintro ⟨-, hrow⟩
      rw [← hrow]

/-- A tree is built exactly from entries that are accepted. -/
theorem exists_build_eq_ok_iff : (∃ tree, build entries = .ok tree) ↔ Accepts entries := by
  constructor
  · rintro ⟨tree, h⟩
    exact (build_eq_ok_iff.mp h).1
  · exact fun h => ⟨⟨_⟩, build_eq_ok_iff.mpr ⟨h, rfl⟩⟩

/-- The order in which they are given makes no difference. -/
theorem Accepts.of_perm {entries' : List TreeEntry} (h : Accepts entries)
    (hperm : entries'.Perm entries) : Accepts entries' :=
  ⟨fun entry hm => h.isName entry (hperm.mem_iff.mp hm),
    (hperm.map TreeEntry.name).nodup_iff.mpr h.nodup⟩

/-! ## The one ascending row -/

/-- Sorted entries of different names strictly ascend, if they are sorted by what is compared. -/
theorem Accepts.pairwise_mergeSort (h : Accepts entries)
    (hkeys : ∀ entry ∈ entries, entry.sortKey = entry.collated) :
    (entries.mergeSort TreeEntry.le).Pairwise (·.collated < ·.collated) := by
  have hperm := List.mergeSort_perm entries TreeEntry.le
  have hsorted := List.pairwise_mergeSort TreeEntry.le_trans TreeEntry.le_total entries
  have hnames : (entries.mergeSort TreeEntry.le).Pairwise (·.name ≠ ·.name) :=
    List.pairwise_map.mp (h.of_perm hperm).nodup
  refine (hsorted.and hnames).imp_of_mem fun {a b} ha hb hab => ?_
  obtain ⟨hle, hne⟩ := hab
  have ha := hperm.mem_iff.mp ha
  have hb := hperm.mem_iff.mp hb
  rw [TreeEntry.le, decide_eq_true_iff, hkeys a ha, hkeys b hb, List.le_iff_lt_or_eq] at hle
  refine hle.resolve_right fun heq => hne ?_
  exact TreeEntry.name_eq_of_collated_eq (h.isName a ha).2.1 (h.isName b hb).2.1 heq

/-- Two ascending rows of the same entries are one row. -/
theorem eq_of_perm_of_pairwise {row row' : List TreeEntry}
    (h : row.Pairwise (·.collated < ·.collated)) (h' : row'.Pairwise (·.collated < ·.collated))
    (hperm : row.Perm row') : row = row' :=
  hperm.eq_of_pairwise (fun _ _ _ _ hlt hgt => absurd hgt (List.lt_asymm hlt)) h h'

/-- What is built of entries is an ascending row of them. -/
theorem ascends_of_build (hmodes : ∀ entry ∈ entries, entry.mode.IsGiven)
    (h : build entries = .ok tree) :
    tree.entries.Perm entries ∧ tree.entries.Pairwise (·.collated < ·.collated) := by
  obtain ⟨haccepts, hentries⟩ := build_eq_ok_iff.mp h
  rw [hentries]
  exact ⟨List.mergeSort_perm entries _, haccepts.pairwise_mergeSort fun entry hm =>
    TreeEntry.sortKey_eq_collated (hmodes entry hm).ne_other⟩

/-- The same entries in another order give the same tree. -/
theorem build_of_perm {entries' : List TreeEntry}
    (hmodes : ∀ entry ∈ entries, entry.mode.IsGiven) (hperm : entries'.Perm entries)
    (h : build entries = .ok tree) : build entries' = .ok tree := by
  have haccepts := (exists_build_eq_ok_iff.mp ⟨tree, h⟩).of_perm hperm
  obtain ⟨tree', h'⟩ := exists_build_eq_ok_iff.mpr haccepts
  have hmodes' : ∀ entry ∈ entries', entry.mode.IsGiven := fun entry hm =>
    hmodes entry (hperm.mem_iff.mp hm)
  obtain ⟨hsame, hascends⟩ := ascends_of_build hmodes h
  obtain ⟨hsame', hascends'⟩ := ascends_of_build hmodes' h'
  have hentries : tree'.entries = tree.entries :=
    eq_of_perm_of_pairwise hascends' hascends (hsame'.trans (hperm.trans hsame.symm))
  have htree : tree' = tree := congrArg Tree.mk hentries
  rw [h', htree]

/-- A tree is built of entries exactly if their names are single segments and no two are the same,
and then it is the one ascending row of them. So the order in which they come decides nothing: in
any other order they are refused as well, or give the same tree, and with it the same payload and
the same id. -/
theorem build_canonical (entries : List TreeEntry)
    (hmodes : ∀ entry ∈ entries, entry.mode.IsGiven) :
    ((∃ tree, build entries = .ok tree) ↔
      (∀ entry ∈ entries, Path.IsName entry.name) ∧ (entries.map TreeEntry.name).Nodup) ∧
    (∀ tree, build entries = .ok tree →
      tree.entries.Perm entries ∧ tree.entries.Pairwise (·.collated < ·.collated)) ∧
    ∀ entries', entries'.Perm entries →
      (∃ fault fault', build entries = .error fault ∧ build entries' = .error fault') ∨
      ∃ tree, build entries = .ok tree ∧ build entries' = .ok tree := by
  refine ⟨?_, fun tree => ascends_of_build hmodes, ?_⟩
  · rw [exists_build_eq_ok_iff]
    exact ⟨fun h => ⟨h.isName, h.nodup⟩, fun h => ⟨h.1, h.2⟩⟩
  · intro entries' hperm
    cases hbuild : build entries with
    | ok tree => exact Or.inr ⟨tree, rfl, build_of_perm hmodes hperm hbuild⟩
    | error fault =>
      cases hbuild' : build entries' with
      | error fault' => exact Or.inl ⟨fault, fault', rfl, rfl⟩
      | ok tree =>
        -- entries refused in one order are accepted in none
        have haccepts := (exists_build_eq_ok_iff.mp ⟨tree, hbuild'⟩).of_perm hperm.symm
        obtain ⟨_, hother⟩ := exists_build_eq_ok_iff.mpr haccepts
        rw [hbuild] at hother
        cases hother

/-- A directory between files whose names go on where its own ends. -/
theorem build_canonical_foo :
    let id : ObjectId := ⟨List.replicate 20 0, rfl⟩
    let directory : TreeEntry := ⟨.directory, "foo", id⟩
    let backup : TreeEntry := ⟨.regular, "foo-bar", id⟩
    let text : TreeEntry := ⟨.other 0o100664, "foo.txt", id⟩
    let numbered : TreeEntry := ⟨.submodule, "foo0", id⟩
    (∀ entry ∈ [directory, backup, text, numbered], entry.mode.IsGiven) ∧
      ∃ tree, build [directory, backup, text, numbered] = .ok tree ∧
        build [numbered, text, backup, directory] = .ok tree ∧
        tree.entries = [backup, text, directory, numbered] := by
  intro id directory backup text numbered
  have hmodes : ∀ entry ∈ [directory, backup, text, numbered], entry.mode.IsGiven := by
    have hdirectory : EntryMode.ofOctal "040000" = .ok .directory := by decide +kernel
    simp only [List.forall_mem_cons, List.not_mem_nil, false_imp_iff, implies_true, and_true]
    exact ⟨.ofOctal hdirectory, .ofValue 0o100644, .ofValue 0o100664, .ofValue 0o160000⟩
  obtain ⟨hbuilds, hrow, horder⟩ := build_canonical _ hmodes
  obtain ⟨tree, hbuild⟩ := hbuilds.mpr ⟨by decide +kernel, by decide +kernel⟩
  refine ⟨hmodes, tree, hbuild, ?_, ?_⟩
  · rcases horder _ (List.reverse_perm [directory, backup, text, numbered]) with h | h
    · obtain ⟨fault, fault', hfault, -⟩ := h
      rw [hbuild] at hfault
      cases hfault
    · obtain ⟨tree', h, h'⟩ := h
      rw [hbuild] at h
      exact h' ▸ h.symm
  · obtain ⟨hperm, hascends⟩ := hrow tree hbuild
    refine eq_of_perm_of_pairwise hascends (by decide +kernel) (hperm.trans ?_)
    decide +kernel

end Tree

end ObjectStore
