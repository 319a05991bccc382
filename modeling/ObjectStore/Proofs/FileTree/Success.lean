import ObjectStore.Proofs.FileTree.Failure

/-!
# Operations that succeed

What has to be there, and what must not be, for an operation to succeed.

* `createDirectories_of_unblocked`: directories can be made where nothing is in the way, and then
  they are there and nothing else has changed.
* `freshNumber_of_not_isPresent`: a staged file gets the drawn number if that one is free.
* `replaceFile_of_isStageable`: a staged write succeeds if the file system can hold the staged file
  and the target leads to a place where no directory is.
-/

namespace ObjectStore.FileTree

variable {t t' : FileTree} {g l r : Location} {p base directory target : Path} {stem : String}
variable {names : List String} {content : Bytes}

/-! ## Making directories -/

/-- Nothing is in the way after directories were made either. -/
theorem Unblocked.grows {made : Location → Prop} (hway : t.Unblocked r p names)
    (hgrows : Grows made noFile t t') : t'.Unblocked r p names where
  short := hway.short
  names_short := hway.names_short
  no_file front content hfront hfile :=
    hway.no_file front content hfront (hgrows.file_of_noFile hfile)

/-- Where a path leads, a directory is made or there is one, unless there is a file. -/
theorem createDirectory_of_locate (hl : t.locate p = .ok l)
    (hfile : ∀ content, t.lookup l ≠ some (.file content)) :
    (∃ t', createDirectory p t = (.ok (), t')) ∨
      createDirectory p t = (.error .alreadyExists, t) ∧ t.isDirectory p = true := by
  unfold createDirectory
  simp only [hl]
  cases hnode : t.lookup l with
  | none => exact Or.inl ⟨_, rfl⟩
  | some node =>
    cases node with
    | directory => exact Or.inr ⟨rfl, isDirectory_iff.mpr ⟨l, hl, hnode⟩⟩
    | file content => exact absurd hnode (hfile content)

/-- Directories can be made where nothing is in the way. -/
theorem createWithin_of_unblocked {steps : Nat} (hsteps : names.length ≤ steps)
    (hbase : t.locate base = .ok r) (hr : t.lookup r = some .directory)
    (h : p.Extends base names) (hne : names ≠ []) (hway : t.Unblocked r p names) :
    ∃ t', createWithin steps p t = (.ok (), t') := by
  induction steps generalizing p names with
  | zero => exact absurd (List.length_eq_zero_iff.mp (Nat.le_zero.mp hsteps)) hne
  | succ steps ih =>
    have hfile := fun content => hway.no_file names content List.prefix_rfl
    rcases hway.locate hbase h with hplace | hmissing
    · rcases createDirectory_of_locate hplace hfile with ⟨t', hmake⟩ | ⟨hthere, hdir⟩
      · exact ⟨t', by simp only [createWithin, hmake]⟩
      · exact ⟨t, by simp only [createWithin, hthere, hdir, if_true]⟩
    -- A step is missing. The directory it is in can be made, and then the last one in that.
    obtain ⟨front, n, rfl⟩ := (List.eq_nil_or_concat' names).resolve_left hne
    have hfront : front ≠ [] := by
      rintro rfl
      exact locate_ne_notFound hbase hr h hmissing
    obtain ⟨q, hq, hextends, hlength⟩ := h.exists_parent hfront
    have hwayFront : t.Unblocked r q front :=
      ⟨Nat.lt_of_le_of_lt hlength hway.short,
        fun m hm => hway.names_short m (List.mem_append_left _ hm),
        fun more content hmore => hway.no_file more content (hmore.trans (List.prefix_append _ _))⟩
    rw [List.length_append, List.length_singleton] at hsteps
    obtain ⟨made, hmade⟩ := ih (Nat.le_of_succ_le_succ hsteps) hextends hfront hwayFront
    obtain ⟨hgrows, hdirectory⟩ := createWithin_extends steps hmade hbase hr hextends hfront
    have hplace : made.locate p = .ok (r ++ (front ++ [n])) := by
      refine (locate_extends_eq_ok_iff (hgrows.locate hbase) h).mpr
        ⟨hway.short, rfl, hway.names_short, fun _ => ?_⟩
      rw [List.dropLast_concat]
      exact hdirectory rfl
    have hfirst : createDirectory p t = (.error .notFound, t) := by
      simp only [createDirectory, hmissing]
    rcases createDirectory_of_locate hplace fun content =>
        (hway.grows hgrows).no_file _ content List.prefix_rfl with ⟨t', hmake⟩ | ⟨hthere, hdir⟩
    · exact ⟨t', by simp only [createWithin, hfirst, hq, Option.elim_some, hmade, hmake]⟩
    · exact ⟨made, by
        simp only [createWithin, hfirst, hq, Option.elim_some, hmade, hthere, hdir, if_true]⟩

/-- They are there afterwards, and nothing else has changed. -/
theorem createDirectories_of_unblocked (hbase : t.locate base = .ok r)
    (hr : t.lookup r = some .directory) (h : p.Extends base names) (hne : names ≠ [])
    (hway : t.Unblocked r p names) :
    ∃ t', createDirectories p t = (.ok (), t') ∧ ∀ l node, t'.lookup l = some node ↔
      t.lookup l = some node ∨ t.lookup l = none ∧ l <+: r ++ names ∧ node = .directory := by
  obtain ⟨t', hmake⟩ :=
    createWithin_of_unblocked (Nat.le_succ_of_le h.length_le) hbase hr h hne hway
  obtain ⟨hgrows, hdir⟩ := createDirectories_extends hmake hbase hr h hne
  refine ⟨t', hmake, fun l node => ?_⟩
  rcases hgrows l with hsame | ⟨hnone, hmade, hl⟩ | ⟨-, content, -, hfile⟩
  · rw [hsame]
    refine ⟨Or.inl, fun hor => hor.elim id ?_⟩
    rintro ⟨hnone, hl, -⟩
    rw [hnone, directory_of_prefix (hdir rfl) hl] at hsame
    cases hsame
  · simp [hnone, hmade, hl, eq_comm]
  · exact hfile.elim

/-- A path that cannot be followed for another reason than a missing step is no path of a directory
that can be made. -/
theorem createDirectories_of_locate_error {fault : IoFault} (h : t.locate p = .error fault)
    (hfault : fault ≠ .notFound) : createDirectories p t = (.error fault, t) := by
  have hdir : t.isDirectory p = false := by
    rw [isDirectory, nodeAt_of_locate_error h]
  have hfail : createDirectory p t = (.error fault, t) := by
    simp only [createDirectory, h]
  unfold createDirectories createWithin
  simp only [hfail, hdir, Bool.false_eq_true, if_false]

/-! ## Staging -/

/-- If the drawn number is free, it is the one that is chosen. -/
theorem freshNumber_of_not_isPresent {draw : UInt32}
    (h : t.isPresent (stagedPath directory stem draw.toNat) = false) :
    t.freshNumber directory stem draw = draw.toNat := by
  have hfirst : t.freeIndex directory stem draw = 0 := by
    rw [freeIndex, List.range_succ_eq_map, List.find?_cons_of_pos]
    · rfl
    · rw [candidate_zero, h]
      rfl
  rw [freshNumber, hfirst, candidate_zero]

/-- In a directory, it is chosen if nothing has the name of its staged file. -/
theorem freshNumber_of_lookup_eq_none {draw : UInt32} (hg : t.locate directory = .ok g)
    (hdirectory : t.lookup g = some .directory) (hstem : Path.IsName stem)
    (hdot : stem.toList.head? ≠ some '.')
    (hfree : t.lookup (g ++ [stem ++ "-" ++ Numeral.decimal draw.toNat]) = none) :
    t.freshNumber directory stem draw = draw.toNat := by
  apply freshNumber_of_not_isPresent
  obtain ⟨-, hplace⟩ | ⟨-, hlong⟩ := locate_stagedPath hg hdirectory hstem hdot draw.toNat
  · rw [isPresent, nodeAt_of_locate hplace, hfree]
    rfl
  · rw [isPresent, nodeAt_of_locate_error hlong]
    rfl

/-- A drawn number has ten digits at most. -/
theorem utf8ByteSize_decimal_draw_le (draw : UInt32) :
    (Numeral.decimal draw.toNat).utf8ByteSize ≤ 10 := by
  rw [Numeral.utf8ByteSize_decimal, Nat.length_toDigits_le_iff (by decide) (by decide)]
  exact Nat.lt_trans draw.toNat_lt (by decide)

/-! ## Staged writes -/

/-- A staged file takes the place of whatever file its target leads to. -/
theorem publish_of_locate {staged : Path} (h : IsStaged staged content t t')
    (hl : t.locate target = .ok l) (hdir : t.lookup l ≠ some .directory) :
    publish staged target t' = (.ok (), t.put l (.file content)) := by
  have hl' : t'.locate target = .ok l := h.locate_iff.mpr hl
  have hdir' : t'.lookup l ≠ some .directory := fun hd => hdir ((h.directory_iff l).mp hd)
  have hrename : rename staged target t' = (.ok (), (unlink staged t').put l (.file content)) := by
    simp only [rename, h.readFile, hl', if_neg hdir']
  rw [publish, Change.orTidy_of_ok (Change.mapError_of_ok hrename), h.unlink]

/-- In a directory, a staged write succeeds if the file system can hold the staged file, and the
target leads to a place where no directory is. -/
theorem replaceFile_of_isStageable {draw : UInt32} (hg : t.locate directory = .ok g)
    (hdirectory : t.lookup g = some .directory) (hstem : Path.IsName stem)
    (hdot : stem.toList.head? ≠ some '.')
    (hfits : IsStageable directory stem (t.freshNumber directory stem draw))
    (hl : t.locate target = .ok l) (hdir : t.lookup l ≠ some .directory) (content : Bytes) :
    replaceFile draw directory stem target content t = (.ok (), t.put l (.file content)) := by
  obtain ⟨t', hstaged, hstage⟩ := stage_of_isStageable hg hdirectory hstem hdot hfits content
  rw [replaceFile, Change.bind_of_ok hstage]
  exact publish_of_locate hstaged hl hdir

end ObjectStore.FileTree
