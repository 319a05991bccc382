import Mathlib.Data.List.Nodup
import ObjectStore.Proofs.FileTree.Growth
import ObjectStore.Proofs.FileTree.Staged

/-!
# What failed operations leave behind

An operation of several steps may fail after the first of them. This module says why it can, when
the path it is about goes straight down from a directory.

* `isPresent_freshNumber`: whatever number is drawn, there is a free one for a staged file, so
  staging one never fails because another is there.
* `stage_of_isStageable`, `stage_of_not_isStageable`: it fails exactly if the path that the number
  gives is too long.
* `createWithin_error`: directories are made from the outside in. If one is made and another
  cannot be, the path of that one is too long: nothing else can be in its way, as it is looked for
  in a directory that was not there before.
* `createDirectories_of_lookup`, `eq_of_createDirectories`: none is made in place of one that was
  there, nor in front of one.
* `replaceFile_error`: a staged write changes nothing if it fails (`eq_of_replaceFile_error`). In a
  directory, it fails only for a path that is too long, or a directory where the path leads.
-/

namespace ObjectStore.FileTree

variable {t t' : FileTree} {g r : Location} {p base directory target : Path} {stem n : String}
variable {names front : List String} {content : Bytes} {fault : IoFault} {err : StoreError}
variable {draw : UInt32}

/-! ## A free number -/

/-- There are at least as many entries as places where something is. -/
theorem length_le_entries {places : List Location} (hnodup : places.Nodup)
    (h : ∀ l ∈ places, l ≠ [] ∧ t.lookup l ≠ none) : places.length ≤ t.entries.length := by
  rw [← List.length_map (f := Prod.fst)]
  refine hnodup.length_le_of_subset fun l hl => ?_
  obtain ⟨hne, hlookup⟩ := h l hl
  obtain ⟨node, hnode⟩ := Option.ne_none_iff_exists'.mp hlookup
  exact List.mem_map.mpr ⟨(l, node), (lookup_eq_some_iff hne).mp hnode, rfl⟩

/-- No number is tried twice. -/
theorem candidate_injective (draw : UInt32) : Function.Injective (candidate draw) := by
  intro i j heq
  have hdraw : draw.toNat < 4294967296 := draw.toNat_lt
  simp only [candidate, UInt32.size] at heq
  split_ifs at heq <;> omega

/-- The drawn number is tried first. -/
theorem candidate_zero (draw : UInt32) : candidate draw 0 = draw.toNat := by
  rw [candidate, if_pos (by decide), Nat.add_zero]
  exact Nat.mod_eq_of_lt draw.toNat_lt_size

/-- Not all the numbers that are tried are taken. -/
theorem exists_not_isPresent_stagedPath (draw : UInt32) (hg : t.locate directory = .ok g)
    (hstem : Path.IsName stem) (hdot : stem.toList.head? ≠ some '.') :
    ∃ i ∈ List.range (t.entries.length + 1),
      t.isPresent (stagedPath directory stem (candidate draw i)) = false := by
  by_contra! hall
  have htext : directory.text ≠ "" := (locate_eq_ok_iff.mp hg).2.1
  have hplaces : ∀ l ∈ (List.range (t.entries.length + 1)).map
      fun i => g ++ [stem ++ "-" ++ Numeral.decimal (candidate draw i)],
      l ≠ [] ∧ t.lookup l ≠ none := by
    intro l hl
    obtain ⟨i, hi, rfl⟩ := List.mem_map.mp hl
    obtain ⟨l, node, hlocate, hnode⟩ := isPresent_iff.mp (eq_true_of_ne_false (hall i hi))
    obtain ⟨-, rfl, -⟩ :=
      (locate_extends_eq_ok_iff hg (stagedPath_extends htext hstem hdot _)).mp hlocate
    exact ⟨by simp, hnode ▸ Option.some_ne_none _⟩
  have hnodup : ((List.range (t.entries.length + 1)).map
      fun i => g ++ [stem ++ "-" ++ Numeral.decimal (candidate draw i)]).Nodup := by
    refine List.nodup_range.map fun i j heq => candidate_injective draw ?_
    exact Numeral.decimal_injective (by simpa using heq)
  have hlength := length_le_entries hnodup hplaces
  rw [List.length_map, List.length_range] at hlength
  omega

/-- The number that is chosen for a staged file is free. -/
theorem isPresent_freshNumber (draw : UInt32) (hg : t.locate directory = .ok g)
    (hstem : Path.IsName stem) (hdot : stem.toList.head? ≠ some '.') :
    t.isPresent (stagedPath directory stem (t.freshNumber directory stem draw)) = false := by
  rw [freshNumber, freeIndex]
  cases hfind : (List.range (t.entries.length + 1)).find? fun i =>
      !t.isPresent (stagedPath directory stem (candidate draw i)) with
  | none =>
    obtain ⟨i, hi, hfree⟩ := exists_not_isPresent_stagedPath draw hg hstem hdot
    have htaken := List.find?_eq_none.mp hfind i hi
    rw [hfree] at htaken
    exact absurd rfl htaken
  | some i =>
    have hfree := List.find?_some hfind
    rwa [Bool.not_eq_true'] at hfree

/-! ## Staged writes -/

/-- The file system can hold a staged file with that number: neither its path nor its name is too
long. -/
structure IsStageable (directory : Path) (stem : String) (number : Nat) : Prop where
  path : (stagedPath directory stem number).text.utf8ByteSize < pathLimit
  name : (stem ++ "-" ++ Numeral.decimal number).utf8ByteSize ≤ nameLimit

section Directory

variable (hg : t.locate directory = .ok g) (hdirectory : t.lookup g = some .directory)
variable (hstem : Path.IsName stem) (hdot : stem.toList.head? ≠ some '.')

include hg hdirectory hstem hdot

/-- In a directory, the path of a staged file leads to its place there, or is too long. -/
theorem locate_stagedPath (number : Nat) :
    IsStageable directory stem number ∧
        t.locate (stagedPath directory stem number)
          = .ok (g ++ [stem ++ "-" ++ Numeral.decimal number]) ∨
      ¬ IsStageable directory stem number ∧
        t.locate (stagedPath directory stem number) = .error .nameTooLong := by
  have hextends := stagedPath_extends (locate_eq_ok_iff.mp hg).2.1 hstem hdot number
  have hplace : t.locate (stagedPath directory stem number)
      = .ok (g ++ [stem ++ "-" ++ Numeral.decimal number]) ↔ IsStageable directory stem number := by
    rw [locate_extends_eq_ok_iff hg hextends]
    constructor
    · rintro ⟨hshort, -, hname, -⟩
      exact ⟨hshort, hname _ (List.mem_singleton_self _)⟩
    · rintro ⟨hshort, hname⟩
      exact ⟨hshort, rfl, by simpa using hname, by simpa using hdirectory⟩
  have hdir : t.lookup (g ++ []) = some .directory := by rwa [List.append_nil]
  obtain hlong | hok := locate_extends_concat hg hextends hdir
  · refine Or.inr ⟨fun hfits => ?_, hlong⟩
    rw [hplace.mpr hfits] at hlong
    cases hlong
  · rw [List.nil_append] at hok
    exact Or.inl ⟨hplace.mp hok, hok⟩

/-- In a directory, a file is staged if the file system can hold it with the number that is
chosen. -/
theorem stage_of_isStageable
    (hfits : IsStageable directory stem (t.freshNumber directory stem draw)) (content : Bytes) :
    ∃ t', IsStaged (stagedPath directory stem (t.freshNumber directory stem draw)) content t t' ∧
      stage draw directory stem content t
        = (.ok (stagedPath directory stem (t.freshNumber directory stem draw)), t') := by
  obtain ⟨-, hplace⟩ | ⟨hlong, -⟩ :=
    locate_stagedPath hg hdirectory hstem hdot (t.freshNumber directory stem draw)
  · have hnone : t.lookup (g ++ [stem ++ "-" ++
        Numeral.decimal (t.freshNumber directory stem draw)]) = none := by
      by_contra hlookup
      obtain ⟨node, hnode⟩ := Option.ne_none_iff_exists'.mp hlookup
      have hfree := isPresent_freshNumber draw hg hstem hdot
      rw [isPresent_iff.mpr ⟨_, node, hplace, hnode⟩] at hfree
      cases hfree
    refine ⟨_, ⟨_, hplace, hnone, rfl⟩, ?_⟩
    simp only [stage, createFile, hplace, hnone]
  · exact absurd hfits hlong

/-- Otherwise its path is refused, and nothing is changed. -/
theorem stage_of_not_isStageable
    (hlong : ¬ IsStageable directory stem (t.freshNumber directory stem draw)) (content : Bytes) :
    stage draw directory stem content t
      = (.error (.io (stagedPath directory stem (t.freshNumber directory stem draw)) .nameTooLong),
        t) := by
  obtain ⟨hfits, -⟩ | ⟨-, hrefused⟩ :=
    locate_stagedPath hg hdirectory hstem hdot (t.freshNumber directory stem draw)
  · exact absurd hfits hlong
  · simp only [stage, createFile, hrefused]

/-- So staging in a directory fails only for a path that is too long. -/
theorem stage_error (hfail : stage draw directory stem content t = (.error err, t')) :
    ∃ path, err = .io path .nameTooLong := by
  by_cases hfits : IsStageable directory stem (t.freshNumber directory stem draw)
  · obtain ⟨staged, -, hok⟩ := stage_of_isStageable hg hdirectory hstem hdot hfits content
    rw [hok] at hfail
    cases hfail
  · rw [stage_of_not_isStageable hg hdirectory hstem hdot hfits content] at hfail
    exact ⟨_, (Except.error.inj (Prod.mk.inj hfail).1).symm⟩

end Directory

/-- Renaming a file fails if its new path leads nowhere, or to a directory. -/
theorem rename_error (h : t.readFile p = .ok content)
    (hfail : rename p target t = (.error fault, t')) :
    t.locate target = .error fault ∨ t.isDirectory target = true := by
  cases hl : t.locate target with
  | error fault' =>
    simp only [rename, h, hl, Prod.mk.injEq, Except.error.injEq] at hfail
    exact Or.inl (congrArg _ hfail.1)
  | ok l =>
    by_cases hdir : t.lookup l = some .directory
    · exact Or.inr (isDirectory_iff.mpr ⟨l, hl, hdir⟩)
    · simp [rename, h, hl, hdir] at hfail

/-- A staged file makes no directory, and takes none away. -/
theorem IsStaged.isDirectory_iff {staged : Path} (h : IsStaged staged content t t') :
    t'.isDirectory p = true ↔ t.isDirectory p = true := by
  simp only [FileTree.isDirectory_iff, h.locate_iff, h.directory_iff]

/-- Publishing a file in a directory fails only for a path that is too long, or a directory where
the path leads. -/
theorem publish_error {staged : Path} (h : IsStaged staged content t t')
    (hbase : t.locate base = .ok r) (htarget : target.Extends base (front ++ [n]))
    (hfront : t.lookup (r ++ front) = some .directory) {t'' : FileTree}
    (hfail : publish staged target t' = (.error err, t'')) :
    (∃ path, err = .io path .nameTooLong) ∨ t.isDirectory target = true := by
  cases hrename : rename staged target t' with
  | mk result t₁ =>
    cases result with
    | ok =>
      rw [publish, Change.orTidy_of_ok (Change.mapError_of_ok hrename)] at hfail
      cases hfail
    | error fault =>
      rw [publish, Change.orTidy_of_error (Change.mapError_of_error hrename), Prod.mk.injEq,
        Except.error.injEq] at hfail
      obtain hfault | hdir := rename_error h.readFile hrename
      · obtain hlong | hplace := locate_extends_concat (h.locate_iff.mpr hbase) htarget
          ((h.directory_iff _).mpr hfront)
        · rw [hfault, Except.error.injEq] at hlong
          exact Or.inl ⟨target, by rw [← hfail.1, hlong]⟩
        · rw [hfault] at hplace
          cases hplace
      · exact Or.inr (h.isDirectory_iff.mp hdir)

/-- A staged write that fails changes nothing. -/
theorem eq_of_replaceFile_error (hfail : replaceFile draw directory stem target content t
    = (.error err, t')) : t' = t := by
  obtain ⟨err', hsame⟩ | ⟨l, -, -, hok⟩ := replaceFile_cases draw directory stem target content t
  · exact (Prod.mk.inj (hfail.symm.trans hsame)).2
  · rw [hok] at hfail
    cases hfail

/-- In a directory, a staged write fails only for a path that is too long, or a directory where its
path leads. -/
theorem replaceFile_error (hg : t.locate directory = .ok g)
    (hdirectory : t.lookup g = some .directory) (hstem : Path.IsName stem)
    (hdot : stem.toList.head? ≠ some '.') (hbase : t.locate base = .ok r)
    (htarget : target.Extends base (front ++ [n]))
    (hfront : t.lookup (r ++ front) = some .directory)
    (hfail : replaceFile draw directory stem target content t = (.error err, t')) :
    (∃ path, err = .io path .nameTooLong) ∨ t.isDirectory target = true := by
  obtain ⟨err', hstage⟩ | ⟨k, t₁, hstaged, hstage⟩ := stage_cases draw directory stem content t
  · rw [replaceFile, Change.bind_of_error hstage] at hfail
    obtain rfl := Except.error.inj (Prod.mk.inj hfail).1
    exact Or.inl (stage_error hg hdirectory hstem hdot hstage)
  · rw [replaceFile, Change.bind_of_ok hstage] at hfail
    exact publish_error hstaged hbase htarget hfront hfail

/-! ## Making directories -/

/-- Where a directory is, making directories changes nothing, whether the path can be followed or
not. -/
theorem createDirectories_of_lookup (hbase : t.locate base = .ok r)
    (h : p.Extends base (front ++ [n])) (hdir : t.lookup (r ++ (front ++ [n])) = some .directory) :
    (createDirectories p t).2 = t := by
  have hfront : t.lookup (r ++ front) = some .directory :=
    directory_of_prefix hdir ((List.prefix_append_right_inj r).mpr (List.prefix_append _ _))
  obtain ⟨result, t', hattempt, heq⟩ | ⟨habsent, -⟩ := createWithin_cases p.text.length p t
  · rw [createDirectories, heq]
    cases hattempt with
    | made l hl hnone =>
      obtain ⟨-, rfl, -⟩ := (locate_extends_eq_ok_iff hbase h).mp hl
      rw [hdir] at hnone
      cases hnone
    | there => rfl
    | failed => rfl
  · obtain hlong | hplace := locate_extends_concat hbase h hfront
    · rw [hlong] at habsent
      cases habsent
    · rw [hplace] at habsent
      cases habsent

/-- A directory that a path leads to counts as made. -/
theorem createDirectories_of_isDirectory (h : t.isDirectory p = true) :
    createDirectories p t = (.ok (), t) := by
  obtain ⟨l, hl, hdir⟩ := isDirectory_iff.mp h
  obtain ⟨result, t', hattempt, heq⟩ | ⟨habsent, -⟩ := createWithin_cases p.text.length p t
  · rw [createDirectories, heq]
    cases hattempt with
    | made m hm hnone =>
      obtain rfl := Except.ok.inj (hl.symm.trans hm)
      rw [hdir] at hnone
      cases hnone
    | there => rfl
    | failed fault _ hno => exact absurd h hno
  · rw [hl] at habsent
    cases habsent

/-- Making directories changes nothing if there is a directory below afterwards: that was there
before, and so was what it is in. -/
theorem eq_of_createDirectories (hmake : createDirectories p t = (.ok (), t'))
    (hbase : t.locate base = .ok r) (hr : t.lookup r = some .directory) (h : p.Extends base front)
    (hne : front ≠ []) (htarget : target.Extends base (front ++ [n]))
    (hthere : t'.isDirectory target = true) : t' = t := by
  obtain ⟨hgrows, -⟩ := createDirectories_extends hmake hbase hr h hne
  obtain ⟨l, hl, hdir⟩ := isDirectory_iff.mp hthere
  obtain ⟨-, rfl, -⟩ := (locate_extends_eq_ok_iff (hgrows.locate hbase) htarget).mp hl
  have hbelow : ¬ r ++ (front ++ [n]) <+: r ++ front := by
    intro hprefix
    have hlength := hprefix.length_le
    simp only [List.length_append, List.length_cons, List.length_nil] at hlength
    omega
  rw [hgrows.lookup_eq hbelow fun _ => id] at hdir
  have hfront : t.lookup (r ++ front) = some .directory :=
    directory_of_prefix hdir ((List.prefix_append_right_inj r).mpr (List.prefix_append _ _))
  obtain ⟨init, last, rfl⟩ := (List.eq_nil_or_concat' front).resolve_left hne
  have hsame := createDirectories_of_lookup hbase h hfront
  rwa [hmake] at hsame

/-- In a directory that was not there before, a directory can be made unless its path is too
long. -/
theorem createDirectory_error (hbase : t.locate base = .ok r)
    (h : p.Extends base (front ++ [n])) (hgrows : Grows (fun _ => True) noFile t t')
    (habsent : t.locate p = .error .notFound)
    (hfront : t'.lookup (r ++ front) = some .directory) (hno : ¬ t'.isDirectory p = true)
    (hfail : createDirectory p t' = (.error fault, t')) :
    fault = .nameTooLong := by
  obtain hlong | hplace := locate_extends_concat (hgrows.locate hbase) h hfront
  · simp only [createDirectory, hlong, Prod.mk.injEq, Except.error.injEq] at hfail
    exact hfail.1.symm
  exfalso
  cases hnode : t'.lookup (r ++ (front ++ [n])) with
  | none =>
    simp only [createDirectory, hplace, hnode] at hfail
    cases hfail
  | some node =>
    cases node with
    | directory => exact hno (isDirectory_iff.mpr ⟨_, hplace, hnode⟩)
    | file content =>
      -- The file was there before, and so was the directory it is in.
      obtain ⟨hshort, -, hnames, -⟩ :=
        (locate_extends_eq_ok_iff (hgrows.locate hbase) h).mp hplace
      have hfile := hgrows.file_of_noFile hnode
      have hparent : t.lookup (r ++ (front ++ [n])).dropLast = some .directory :=
        lookup_dropLast (hfile ▸ Option.some_ne_none _)
      rw [List.dropLast_append_of_ne_nil (by simp)] at hparent
      rw [(locate_extends_eq_ok_iff hbase h).mpr ⟨hshort, rfl, hnames, fun _ => hparent⟩] at habsent
      cases habsent

/-- If making directories fails, nothing was made or a path is too long. -/
theorem createWithin_error (steps : Nat) (hbase : t.locate base = .ok r)
    (hr : t.lookup r = some .directory) (h : p.Extends base names) (hne : names ≠ [])
    (hfail : createWithin steps p t = (.error fault, t')) :
    fault = .nameTooLong ∨ t' = t := by
  induction steps generalizing p names fault t' with
  | zero =>
    obtain ⟨-, rfl⟩ := Prod.mk.inj hfail
    exact Or.inr rfl
  | succ steps ih =>
    obtain ⟨result, t', hattempt, heq⟩ | ⟨habsent, heq | ⟨q, result, t₁, hq, hrun, hrest⟩⟩ :=
      createWithin_cases steps p t
    · obtain ⟨rfl, rfl⟩ := Prod.mk.inj (heq.symm.trans hfail)
      cases hattempt
      exact Or.inr rfl
    · exact Or.inr (Prod.mk.inj (hfail.symm.trans heq)).2
    · obtain ⟨front, n, rfl⟩ := (List.eq_nil_or_concat' names).resolve_left hne
      have hfront : front ≠ [] := by
        rintro rfl
        exact locate_ne_notFound hbase hr h habsent
      obtain ⟨q', hq', hextends⟩ := h.parent? hfront
      obtain rfl := Option.some.inj (hq'.symm.trans hq)
      obtain ⟨fault', rfl, heq⟩ | ⟨rfl, result, t', hattempt, heq⟩ := hrest
      · obtain ⟨hfault, rfl⟩ := Prod.mk.inj (heq.symm.trans hfail)
        obtain rfl := Except.error.inj hfault
        exact ih hextends hfront hrun
      · obtain ⟨rfl, rfl⟩ := Prod.mk.inj (heq.symm.trans hfail)
        obtain ⟨hgrows, hdir⟩ := createWithin_extends steps hrun hbase hr hextends hfront
        have hgrows := hgrows.mono (fun _ _ => trivial) fun _ _ => id
        cases hattempt with
        | failed _ hsecond hthere =>
          exact Or.inl (createDirectory_error hbase h hgrows habsent (hdir rfl) hthere hsecond)

end ObjectStore.FileTree
