import ObjectStore.FileTree.Staging
import ObjectStore.Proofs.FileTree.Questions

/-!
# Staged writes leave nothing behind

A staged file lies where nothing was, so removing it gives the tree as it was before, and no path
leads anywhere else while it is there. Whatever comes of a staged write, the staged file is gone
afterwards.

* `stage_cases`: staging changes nothing, or the tree `IsStaged`.
* `publish_cases`: publishing puts the content where the target leads, or nothing anywhere.
* `replaceFile_cases`: both together.
-/

namespace ObjectStore.FileTree

variable {t t' : FileTree} {l m : Location} {p staged target : Path} {content : Bytes}

/-! ## Trees with the same entries -/

/-- A tree is its entries. -/
theorem entries_injective (h : t.entries = t'.entries) : t = t' := by
  cases t
  cases t'
  cases h
  rfl

/-- No entry is where nothing is. -/
theorem ne_of_mem_entries {e : Location × Node} (h : t.lookup l = none) (he : e ∈ t.entries) :
    e.1 ≠ l := by
  have hl : l ≠ [] := by
    rintro rfl
    rw [lookup_nil] at h
    cases h
  rintro rfl
  rw [(lookup_eq_some_iff hl).mpr he] at h
  cases h

/-- Removing what is not there changes nothing. -/
theorem filter_entries_of_lookup (h : t.lookup l = none) :
    t.entries.filter (fun e => e.1 != l) = t.entries :=
  List.filter_eq_self.mpr fun _ he => bne_iff_ne.mpr (ne_of_mem_entries h he)

/-- The entries after a node was put somewhere. -/
theorem entries_put {node : Node} (h : t.accepts l = true) :
    (t.put l node).entries = (l, node) :: t.entries.filter fun e => e.1 != l := by
  rw [put, dif_pos h]

/-- The entries after something was removed. -/
theorem entries_erase (h : t.lookup l ≠ some .directory) :
    (t.erase l).entries = t.entries.filter fun e => e.1 != l := by
  rw [erase, dif_pos h]

/-- A file put where nothing was and removed again leaves no trace, wherever else another one was
put in the meantime. -/
theorem erase_put_put {node : Node} (h : t.accepts l = true) (hl : t.lookup l = none)
    (hm : (t.put l (.file content)).accepts m = true) (hm' : t.accepts m = true) (hne : m ≠ l) :
    ((t.put l (.file content)).put m node).erase l = t.put m node := by
  have hlookup : ((t.put l (.file content)).put m node).lookup l = some (.file content) := by
    rw [lookup_put_of_ne hne.symm, lookup_put_self h]
  have hkeep : (t.entries.filter fun e => e.1 != m).filter (fun e => e.1 != l)
      = t.entries.filter fun e => e.1 != m := by
    refine List.filter_eq_self.mpr fun e he => bne_iff_ne.mpr ?_
    exact ne_of_mem_entries hl (List.mem_of_mem_filter he)
  apply entries_injective
  rw [entries_erase (by simp [hlookup]), entries_put hm, entries_put h, entries_put hm',
    filter_entries_of_lookup hl, List.filter_cons_of_pos (by simpa using hne),
    List.filter_cons_of_pos (by simpa using hne.symm), List.filter_cons_of_neg (by simp), hkeep]

/-- A file put where nothing was and removed again leaves no trace. -/
theorem erase_put (h : t.accepts l = true) (hl : t.lookup l = none) :
    (t.put l (.file content)).erase l = t := by
  apply entries_injective
  rw [entries_erase (by simp [lookup_put_self h]), entries_put h, filter_entries_of_lookup hl,
    List.filter_cons_of_neg (by simp), filter_entries_of_lookup hl]

/-! ## Staging -/

/-- Making a file fails, or puts one where the path leads and nothing was. -/
theorem createFile_cases (p : Path) (content : Bytes) (t : FileTree) :
    (∃ fault, createFile p content t = (.error fault, t) ∧
        (fault = .alreadyExists → t.isPresent p = true)) ∨
      ∃ l, t.locate p = .ok l ∧ t.lookup l = none ∧
        createFile p content t = (.ok (), t.put l (.file content)) := by
  unfold createFile
  cases hp : t.locate p with
  | error fault =>
    refine Or.inl ⟨fault, rfl, ?_⟩
    rintro rfl
    exact absurd hp (locate_ne_alreadyExists p)
  | ok l =>
    cases hl : t.lookup l with
    | some node =>
      exact Or.inl ⟨.alreadyExists, by simp [hl], fun _ => isPresent_iff.mpr ⟨l, node, hp, hl⟩⟩
    | none => exact Or.inr ⟨l, rfl, hl, by simp [hl]⟩

/-- Tree `t'` is `t` with a staged file where nothing was. -/
def IsStaged (staged : Path) (content : Bytes) (t t' : FileTree) : Prop :=
  ∃ l, t.locate staged = .ok l ∧ t.lookup l = none ∧ t' = t.put l (.file content)

/-- Staging changes nothing, or the tree `IsStaged`, whatever number is drawn. -/
theorem stage_cases (draw : UInt32) (directory : Path) (stem : String) (content : Bytes)
    (t : FileTree) :
    (∃ err, stage draw directory stem content t = (.error err, t)) ∨
      ∃ n t', IsStaged (stagedPath directory stem n) content t t' ∧
        stage draw directory stem content t = (.ok (stagedPath directory stem n), t') := by
  obtain ⟨fault, hfail, -⟩ | ⟨l, hp, hl, hmake⟩ :=
    createFile_cases (stagedPath directory stem (t.freshNumber directory stem draw)) content t
  · left
    unfold stage
    simp only [hfail]
    exact ⟨_, rfl⟩
  · refine Or.inr ⟨_, _, ⟨l, hp, hl, rfl⟩, ?_⟩
    unfold stage
    simp only [hmake]

namespace IsStaged

variable (h : IsStaged staged content t t')

include h

/-- The staged file is no directory, and hides none. -/
theorem directory_iff (m : Location) :
    t'.lookup m = some .directory ↔ t.lookup m = some .directory := by
  obtain ⟨l, -, hl, rfl⟩ := h
  exact directory_put_file_iff (by simp [hl])

/-- A staged file makes no path lead elsewhere. -/
theorem locate_iff : t'.locate p = .ok m ↔ t.locate p = .ok m := by
  obtain ⟨l, -, hl, rfl⟩ := h
  exact locate_put_file_iff (by simp [hl])

/-- A staged file was put where its path leads and nothing was. -/
theorem exists_put : ∃ l, t'.locate staged = .ok l ∧ t.accepts l = true ∧ t.lookup l = none ∧
    t' = t.put l (.file content) := by
  have hlocate := fun l => h.locate_iff (p := staged) (m := l)
  obtain ⟨l, hp, hl, rfl⟩ := h
  exact ⟨l, (hlocate l).mpr hp, accepts_of_locate hp (by simp [hl]), hl, rfl⟩

/-- A staged file holds what was staged. -/
theorem readFile : t'.readFile staged = .ok content := by
  obtain ⟨l, hp, haccepts, -, rfl⟩ := h.exists_put
  exact readFile_eq_ok_iff.mpr ⟨l, hp, lookup_put_self haccepts _⟩

/-- Removing a staged file gives the tree as it was before. -/
theorem unlink : FileTree.unlink staged t' = t := by
  obtain ⟨l, hp, haccepts, hl, rfl⟩ := h.exists_put
  rw [FileTree.unlink, hp]
  exact erase_put haccepts hl

/-- Whatever is not the staged file was there before. -/
theorem lookup_eq {node : Node} (hm : t'.lookup m = some node) (hne : node ≠ .file content) :
    t.lookup m = some node := by
  obtain ⟨l, -, haccepts, -, rfl⟩ := h.exists_put
  rw [lookup_put haccepts] at hm
  split_ifs at hm
  · exact absurd (Option.some.inj hm).symm hne
  · exact hm

/-- A file written beside the staged one stays when that one is removed. -/
theorem unlink_put (hp : t'.locate p = .ok m) (hm : t'.lookup m = none) :
    t.lookup m = none ∧
      FileTree.unlink staged (t'.put m (.file content)) = t.put m (.file content) := by
  have hmaccepts : t'.accepts m = true := accepts_of_locate hp (by simp [hm])
  have hp' : t.locate p = .ok m := h.locate_iff.mp hp
  obtain ⟨l, hstaged, haccepts, hl, rfl⟩ := h.exists_put
  have hne : m ≠ l := by
    rintro rfl
    rw [lookup_put_self haccepts] at hm
    cases hm
  have hm' : t.lookup m = none := by rwa [lookup_put_of_ne hne] at hm
  refine ⟨hm', ?_⟩
  have hlocate : ((t.put l (.file content)).put m (.file content)).locate staged = .ok l := by
    refine locate_of_directories ?_ hstaged
    intro k hk
    rwa [lookup_put_of_ne]
    rintro rfl
    rw [hm] at hk
    cases hk
  rw [FileTree.unlink, hlocate]
  exact erase_put_put haccepts hl hmaccepts (accepts_of_locate hp' (by simp [hm'])) hne

end IsStaged

/-- A stem with a number behind it is the name of a file. -/
theorem isName_staged {stem : String} (h : Path.IsName stem)
    (hdot : stem.toList.head? ≠ some '.') (n : Nat) :
    Path.IsName (stem ++ "-" ++ Numeral.decimal n) := by
  have htext : (stem ++ "-" ++ Numeral.decimal n).toList
      = stem.toList ++ '-' :: Nat.toDigits 10 n := by
    simp [Numeral.decimal]
  have hdigit : ∀ {c : Char}, c ∈ Nat.toDigits 10 n → Numeral.isDigit 10 c = true :=
    fun hc => Numeral.isDigit_of_mem_toDigits (by decide) (by decide) n hc
  have hmem : ∀ {c : Char}, c ∉ stem.toList → c ≠ '-' → Numeral.isDigit 10 c = false →
      c ∉ (stem ++ "-" ++ Numeral.decimal n).toList := by
    intro c hstem hdash hc hm
    rw [htext, List.mem_append, List.mem_cons] at hm
    rcases hm with hm | hm | hm
    · exact hstem hm
    · exact hdash hm
    · rw [hdigit hm] at hc
      cases hc
  have hne : stem.toList ≠ [] := fun hnil => h.1 (String.toList_eq_nil_iff.mp hnil)
  refine ⟨?_, hmem h.2.1 (by decide) (by decide), hmem h.2.2.1 (by decide) (by decide),
    Path.isPlain_of_head? ?_⟩
  · simp [h.1]
  · rwa [htext, List.head?_append_of_ne_nil _ hne]

/-- A staged file lies in its directory. -/
theorem stagedPath_extends {directory : Path} {stem : String} (hdirectory : directory.text ≠ "")
    (h : Path.IsName stem) (hdot : stem.toList.head? ≠ some '.') (n : Nat) :
    (stagedPath directory stem n).Extends directory [stem ++ "-" ++ Numeral.decimal n] :=
  Path.extends_join_name hdirectory (isName_staged h hdot n)

/-- The path of a staged file is longer than that of its directory by its name. -/
theorem utf8ByteSize_stagedPath {directory : Path} {stem : String} (h : Path.IsName stem)
    (hdot : stem.toList.head? ≠ some '.') (n : Nat) :
    (stagedPath directory stem n).text.utf8ByteSize
      = directory.text.utf8ByteSize + directory.separator.utf8ByteSize
        + (stem ++ "-" ++ Numeral.decimal n).utf8ByteSize := by
  rw [stagedPath, Path.join_eq (isName_staged h hdot n).isAbsolute_eq, String.utf8ByteSize_append,
    String.utf8ByteSize_append]

/-! ## Publishing -/

/-- Renaming a file fails, or puts its content where the target leads. -/
theorem rename_cases (h : t.readFile p = .ok content) (target : Path) :
    (∃ fault, rename p target t = (.error fault, t)) ∨
      ∃ l, t.locate target = .ok l ∧ t.lookup l ≠ some .directory ∧
        rename p target t = (.ok (), (unlink p t).put l (.file content)) := by
  cases hl : t.locate target with
  | error fault => exact Or.inl ⟨fault, by simp only [rename, h, hl]⟩
  | ok l =>
    by_cases hdir : t.lookup l = some .directory
    · exact Or.inl ⟨.isADirectory, by simp only [rename, h, hl, if_pos hdir]⟩
    · exact Or.inr ⟨l, rfl, hdir, by simp only [rename, h, hl, if_neg hdir]⟩

/-- Publishing a staged file puts its content where the target leads, over nothing or a file, or
changes nothing. -/
theorem publish_cases (h : IsStaged staged content t t') (target : Path) :
    (∃ err, publish staged target t' = (.error err, t)) ∨
      ∃ l, t.locate target = .ok l ∧ t.lookup l ≠ some .directory ∧
        publish staged target t' = (.ok (), t.put l (.file content)) := by
  obtain ⟨fault, hfail⟩ | ⟨l, hl, hdir, hrename⟩ := rename_cases h.readFile target
  · refine Or.inl ⟨.io target fault, ?_⟩
    rw [publish, Change.orTidy_of_error (Change.mapError_of_error hfail), h.unlink]
  · refine Or.inr ⟨l, h.locate_iff.mp hl, fun hd => hdir ((h.directory_iff l).mpr hd), ?_⟩
    rw [publish, Change.orTidy_of_ok (Change.mapError_of_ok hrename), h.unlink]

/-- A staged write puts the content where the target leads, over nothing or a file, or changes
nothing. -/
theorem replaceFile_cases (draw : UInt32) (directory : Path) (stem : String) (target : Path)
    (content : Bytes) (t : FileTree) :
    (∃ err, replaceFile draw directory stem target content t = (.error err, t)) ∨
      ∃ l, t.locate target = .ok l ∧ t.lookup l ≠ some .directory ∧
        replaceFile draw directory stem target content t = (.ok (), t.put l (.file content)) := by
  unfold replaceFile
  obtain ⟨err, hfail⟩ | ⟨n, t', hstaged, hstage⟩ := stage_cases draw directory stem content t
  · exact Or.inl ⟨err, Change.bind_of_error hfail⟩
  · rw [Change.bind_of_ok hstage]
    exact publish_cases hstaged target

end ObjectStore.FileTree
