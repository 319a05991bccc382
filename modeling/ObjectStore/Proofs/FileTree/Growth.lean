import ObjectStore.Proofs.FileTree.Questions

/-!
# Trees that grow

Nothing a repository does takes anything away. `FileTree.Grows made written t t'` says that `t'` is
`t` with more in it, and bounds where: directories are made where nothing was, at locations that
satisfy `made`, and files are written where no directory was, as `written` allows.

* `Grows.trans`: changes one after the other stay within the same bounds.
* `Grows.locate`: a path leads to the same location afterwards.
* `SameFiles t t'`: `t'` has the files of `t` and no others. A tree that grows by directories only
  has the same files (`Grows.sameFiles`).
* `createDirectories_grows`, `createDirectories_extends`: making a directory makes nothing but
  directories, and none but those the path leads through.
-/

namespace ObjectStore.FileTree

variable {made made' : Location → Prop} {written written' : Location → Bytes → Prop}
variable {t t' t'' : FileTree} {l : Location} {p base : Path} {r : Location} {names : List String}
variable {result : Except IoFault Unit}

/-- Tree `t'` is `t` with directories made and files written. -/
def Grows (made : Location → Prop) (written : Location → Bytes → Prop) (t t' : FileTree) : Prop :=
  ∀ l, t'.lookup l = t.lookup l ∨
    (t.lookup l = none ∧ t'.lookup l = some .directory ∧ made l) ∨
    (t.lookup l ≠ some .directory ∧
      ∃ content, t'.lookup l = some (.file content) ∧ written l content)

/-- Tree `t'` has the files of `t`, with their content, and no others. -/
def SameFiles (t t' : FileTree) : Prop :=
  ∀ l content, t'.lookup l = some (.file content) ↔ t.lookup l = some (.file content)

namespace SameFiles

/-- A tree has its own files. -/
theorem refl (t : FileTree) : t.SameFiles t := fun _ _ => Iff.rfl

/-- Changes that keep the files do so one after the other. -/
theorem trans (h : t.SameFiles t') (h' : t'.SameFiles t'') : t.SameFiles t'' := fun l content =>
  (h' l content).trans (h l content)

end SameFiles

/-- No file is written. -/
def noFile : Location → Bytes → Prop := fun _ _ => False

/-- A single file is written, with the given content. -/
def oneFile (place : Location) (content : Bytes) : Location → Bytes → Prop :=
  fun l written => l = place ∧ written = content

namespace Grows

/-- A tree grows into itself. -/
theorem refl (t : FileTree) : Grows made written t t := fun _ => Or.inl rfl

/-- The bounds on what grows may be widened. -/
theorem mono (h : Grows made written t t') (hmade : ∀ l, made l → made' l)
    (hwritten : ∀ l content, written l content → written' l content) :
    Grows made' written' t t' := by
  intro l
  obtain heq | ⟨hnone, hdir, hm⟩ | ⟨hne, content, hfile, hw⟩ := h l
  · exact Or.inl heq
  · exact Or.inr (Or.inl ⟨hnone, hdir, hmade l hm⟩)
  · exact Or.inr (Or.inr ⟨hne, content, hfile, hwritten l content hw⟩)

/-- If no file is written, any may be. -/
theorem ofNoFile (h : Grows made noFile t t') : Grows made written t t' :=
  h.mono (fun _ => id) fun _ _ => False.elim

/-- A file is the same before and afterwards, unless one is written in its place. -/
theorem file_iff {content : Bytes} (h : Grows made written t t')
    (hwritten : ∀ content, ¬ written l content) :
    t'.lookup l = some (.file content) ↔ t.lookup l = some (.file content) := by
  obtain heq | ⟨hnone, hdir, -⟩ | ⟨-, other, -, hw⟩ := h l
  · rw [heq]
  · simp [hnone, hdir]
  · exact absurd hw (hwritten other)

/-- If no file is written, every file was there before. -/
theorem file_of_noFile {content : Bytes} (h : Grows made noFile t t')
    (hl : t'.lookup l = some (.file content)) : t.lookup l = some (.file content) :=
  (h.file_iff fun _ => id).mp hl

/-- If no file is written, none is changed and none goes away. -/
theorem sameFiles (h : Grows made noFile t t') : t.SameFiles t' :=
  fun _ _ => h.file_iff fun _ => id

/-- Directories stay. -/
theorem directory (h : Grows made written t t') (hl : t.lookup l = some .directory) :
    t'.lookup l = some .directory := by
  obtain heq | ⟨hnone, -, -⟩ | ⟨hne, -⟩ := h l
  · exact heq.trans hl
  · rw [hl] at hnone
    cases hnone
  · exact absurd hl hne

/-- A path leads to the same location afterwards. -/
theorem locate (h : Grows made written t t') (hp : t.locate p = .ok l) : t'.locate p = .ok l :=
  locate_of_directories (fun _ => h.directory) hp

/-- A directory is still one afterwards. -/
theorem isDirectory (h : Grows made written t t') (hp : t.isDirectory p = true) :
    t'.isDirectory p = true := by
  obtain ⟨l, hl, hdir⟩ := isDirectory_iff.mp hp
  exact isDirectory_iff.mpr ⟨l, h.locate hl, h.directory hdir⟩

/-- Changes one after the other. -/
theorem trans (h : Grows made written t t') (h' : Grows made written t' t'') :
    Grows made written t t'' := by
  intro l
  obtain heq | ⟨hnone, hdir, hm⟩ | ⟨hne, hfile⟩ := h l
  · have := h' l
    rwa [heq] at this
  · exact Or.inr (Or.inl ⟨hnone, h'.directory hdir, hm⟩)
  · obtain ⟨content, hfile, hw⟩ := hfile
    refine Or.inr (Or.inr ⟨hne, ?_⟩)
    obtain heq | ⟨hnone, -, -⟩ | ⟨-, hfile'⟩ := h' l
    · exact ⟨content, heq.trans hfile, hw⟩
    · rw [hfile] at hnone
      cases hnone
    · exact hfile'

/-- Nothing changes outside the bounds. -/
theorem lookup_eq (h : Grows made written t t') (hmade : ¬ made l)
    (hwritten : ∀ content, ¬ written l content) : t'.lookup l = t.lookup l := by
  obtain heq | ⟨-, -, hm⟩ | ⟨-, content, -, hw⟩ := h l
  · exact heq
  · exact absurd hm hmade
  · exact absurd hw (hwritten content)

/-- A directory put where it may be stays within the bounds, and then it is there. -/
theorem directory_put (h : Grows made written t t') (hl : t'.locate p = .ok l)
    (hnone : t'.lookup l = none) (hm : made l) :
    Grows made written t (t'.put l .directory) ∧ (t'.put l .directory).isDirectory p = true := by
  have haccepts : t'.accepts l = true := accepts_of_locate hl (by simp [hnone])
  have hstep : Grows made written t' (t'.put l .directory) := by
    intro m
    rw [lookup_put haccepts]
    split_ifs with hml
    · subst hml
      exact Or.inr (Or.inl ⟨hnone, rfl, hm⟩)
    · exact Or.inl rfl
  exact ⟨h.trans hstep, isDirectory_iff.mpr ⟨l, hstep.locate hl, lookup_put_self haccepts _⟩⟩

/-- A file put where it may be stays within the bounds, and then it reads back. -/
theorem file_put {content : Bytes} (h : Grows made written t t') (hl : t'.locate p = .ok l)
    (hdir : t'.lookup l ≠ some .directory) (hw : written l content) :
    Grows made written t (t'.put l (.file content)) ∧
      (t'.put l (.file content)).readFile p = .ok content := by
  have haccepts : t'.accepts l = true := accepts_of_locate hl hdir
  have hstep : Grows made written t' (t'.put l (.file content)) := by
    intro m
    rw [lookup_put haccepts]
    split_ifs with hml
    · subst hml
      exact Or.inr (Or.inr ⟨hdir, content, rfl, hw⟩)
    · exact Or.inl rfl
  exact ⟨h.trans hstep, readFile_eq_ok_iff.mpr ⟨l, hstep.locate hl, lookup_put_self haccepts _⟩⟩

/-- A file that a path leads to is the same before and afterwards, unless it is the one that is
written. -/
theorem readFile_iff {content : Bytes} (h : Grows made written t t') (hbase : t.locate base = .ok r)
    (hp : p.Extends base names) (hwritten : ∀ content, ¬ written (r ++ names) content) :
    t'.readFile p = .ok content ↔ t.readFile p = .ok content := by
  rw [readFile_extends_iff (h.locate hbase) hp, readFile_extends_iff hbase hp,
    h.file_iff hwritten]

end Grows

/-! ## Making directories -/

/-- Making a directory fails, or puts one where the path leads and nothing was. -/
theorem createDirectory_cases (p : Path) (t : FileTree) :
    (∃ fault, createDirectory p t = (.error fault, t) ∧
        (fault = .notFound → t.locate p = .error .notFound)) ∨
      ∃ l, t.locate p = .ok l ∧ t.lookup l = none ∧
        createDirectory p t = (.ok (), t.put l .directory) := by
  unfold createDirectory
  cases hp : t.locate p with
  | error fault => exact Or.inl ⟨fault, rfl, fun h => by rw [h]⟩
  | ok l =>
    cases hl : t.lookup l with
    | some node => exact Or.inl ⟨.alreadyExists, by simp [hl], nofun⟩
    | none => exact Or.inr ⟨l, rfl, hl, by simp [hl]⟩

/-- What an attempt to make a directory comes to, when one that is there counts as made. -/
inductive Attempt (p : Path) (t : FileTree) : Except IoFault Unit → FileTree → Prop where
  | made (l : Location) : t.locate p = .ok l → t.lookup l = none →
      Attempt p t (.ok ()) (t.put l .directory)
  | there : t.isDirectory p = true → Attempt p t (.ok ()) t
  | failed (fault : IoFault) : createDirectory p t = (.error fault, t) →
      ¬ t.isDirectory p = true → Attempt p t (.error fault) t

/-- An attempt makes no directory but that one. -/
theorem Attempt.grows {t₀ : FileTree} (h : Attempt p t result t') (hgrows : Grows made noFile t₀ t)
    (hmade : ∀ l, t.locate p = .ok l → made l) :
    Grows made noFile t₀ t' ∧ (result = .ok () → t'.isDirectory p = true) := by
  cases h with
  | made l hl hnone =>
    obtain ⟨hput, hdir⟩ := hgrows.directory_put hl hnone (hmade l hl)
    exact ⟨hput, fun _ => hdir⟩
  | there hdir => exact ⟨hgrows, fun _ => hdir⟩
  | failed fault => exact ⟨hgrows, nofun⟩

/-- What making directories comes to: an attempt at the one that is wanted, or, if a step to it is
missing, one at the directory it lies in and then another one. -/
theorem createWithin_cases (steps : Nat) (p : Path) (t : FileTree) :
    (∃ result t', Attempt p t result t' ∧ createWithin (steps + 1) p t = (result, t')) ∨
      t.locate p = .error .notFound ∧
        (createWithin (steps + 1) p t = (.error .notFound, t) ∨
          ∃ q result t₁, p.parent? = some q ∧ createWithin steps q t = (result, t₁) ∧
            ((∃ fault, result = .error fault ∧
                createWithin (steps + 1) p t = (.error fault, t₁)) ∨
              result = .ok () ∧ ∃ result t', Attempt p t₁ result t' ∧
                createWithin (steps + 1) p t = (result, t'))) := by
  obtain ⟨fault, hfail, hfault⟩ | ⟨l, hl, hnone, hmake⟩ := createDirectory_cases p t
  · by_cases hnotFound : fault = .notFound
    · subst hnotFound
      refine Or.inr ⟨hfault rfl, ?_⟩
      simp only [createWithin, hfail]
      cases hq : p.parent? with
      | none => exact Or.inl rfl
      | some q =>
        obtain ⟨result, t₁, hrun⟩ : ∃ result t₁, createWithin steps q t = (result, t₁) :=
          ⟨_, _, rfl⟩
        refine Or.inr ⟨q, result, t₁, rfl, hrun, ?_⟩
        simp only [Option.elim_some, hrun]
        cases result with
        | error fault => exact Or.inl ⟨fault, rfl, rfl⟩
        | ok =>
          refine Or.inr ⟨rfl, ?_⟩
          obtain ⟨fault, hfail, -⟩ | ⟨l, hl, hnone, hmake⟩ := createDirectory_cases p t₁
          · simp only [hfail]
            split_ifs with hdir
            · exact ⟨_, _, .there hdir, rfl⟩
            · exact ⟨_, _, .failed fault hfail hdir, rfl⟩
          · simp only [hmake]
            exact ⟨_, _, .made l hl hnone, rfl⟩
    · left
      simp only [createWithin, hfail]
      split_ifs with hdir
      · exact ⟨_, _, .there hdir, rfl⟩
      · exact ⟨_, _, .failed fault hfail hdir, rfl⟩
  · simp only [createWithin, hmake]
    exact Or.inl ⟨_, _, .made l hl hnone, rfl⟩

/-- Making directories makes no others than it may, if every path it comes to leads to a location
where a directory may be made. Afterwards the path leads to a directory, unless it failed. -/
theorem createWithin_grows {reached : Path → Prop} (steps : Nat)
    (hmade : ∀ q t' l, reached q → Grows made noFile t t' → t'.locate q = .ok l → made l)
    (hparent : ∀ q q', reached q → t.locate q = .error .notFound → q.parent? = some q' →
      reached q')
    (hp : reached p) :
    Grows made noFile t (createWithin steps p t).2 ∧
      ((createWithin steps p t).1 = .ok () → (createWithin steps p t).2.isDirectory p = true) := by
  have hrefl : Grows made noFile t t := Grows.refl t
  induction steps generalizing p with
  | zero => exact ⟨hrefl, nofun⟩
  | succ steps ih =>
    obtain ⟨result, t', hattempt, heq⟩ | ⟨habsent, heq | ⟨q, result, t₁, hq, hrun, hrest⟩⟩ :=
      createWithin_cases steps p t
    · rw [heq]
      exact hattempt.grows hrefl fun l => hmade p t l hp hrefl
    · rw [heq]
      exact ⟨hrefl, nofun⟩
    · obtain ⟨hgrows, -⟩ := ih (hparent p q hp habsent hq)
      rw [hrun] at hgrows
      obtain ⟨fault, -, heq⟩ | ⟨-, result, t', hattempt, heq⟩ := hrest
      · rw [heq]
        exact ⟨hgrows, nofun⟩
      · rw [heq]
        exact hattempt.grows hgrows fun l => hmade p t₁ l hp hgrows

/-- Making directories makes nothing but directories. -/
theorem createDirectories_grows (hmake : createDirectories p t = (result, t')) :
    Grows (fun _ => True) noFile t t' ∧ (result = .ok () → t'.isDirectory p = true) := by
  have hgrows := createWithin_grows (t := t) (p := p) (p.text.length + 1)
    (fun _ _ _ (_ : True) _ _ => trivial) (fun _ _ _ _ _ => trivial) trivial
  rwa [← createDirectories, hmake] at hgrows

/-- Below a directory, making directories makes none but those the path leads through. -/
theorem createWithin_extends (steps : Nat) (hmake : createWithin steps p t = (result, t'))
    (hbase : t.locate base = .ok r) (hr : t.lookup r = some .directory)
    (h : p.Extends base names) (hne : names ≠ []) :
    Grows (· <+: r ++ names) noFile t t' ∧
      (result = .ok () → t'.lookup (r ++ names) = some .directory) := by
  -- The paths it comes to continue the base by some of the names. A path with one name behind the
  -- base is not missing a step, so it never goes out as far as the base.
  have hmade : ∀ q t' l, (∃ more, more ≠ [] ∧ more <+: names ∧ q.Extends base more) →
      Grows (· <+: r ++ names) noFile t t' → t'.locate q = .ok l → l <+: r ++ names := by
    rintro q t' l ⟨more, -, hmore, hq⟩ hgrows hl
    rw [((locate_extends_eq_ok_iff (hgrows.locate hbase) hq).mp hl).2.1]
    exact (List.prefix_append_right_inj r).mpr hmore
  have hparent : ∀ q q', (∃ more, more ≠ [] ∧ more <+: names ∧ q.Extends base more) →
      t.locate q = .error .notFound → q.parent? = some q' →
      ∃ more, more ≠ [] ∧ more <+: names ∧ q'.Extends base more := by
    rintro q q' ⟨more, hne, hmore, hq⟩ hfault hq'
    obtain ⟨front, n, rfl⟩ := (List.eq_nil_or_concat' more).resolve_left hne
    have hfront : front ≠ [] := by
      rintro rfl
      exact locate_ne_notFound hbase hr hq hfault
    obtain ⟨q'', hq'', hextends⟩ := hq.parent? hfront
    rw [hq'] at hq''
    cases hq''
    exact ⟨front, hfront, (List.prefix_append _ _).trans hmore, hextends⟩
  have hspec := createWithin_grows steps hmade hparent ⟨names, hne, List.prefix_rfl, h⟩
  rw [hmake] at hspec
  obtain ⟨hgrows, hdir⟩ := hspec
  refine ⟨hgrows, ?_⟩
  intro hok
  obtain ⟨l, hl, hdirectory⟩ := isDirectory_iff.mp (hdir hok)
  rwa [((locate_extends_eq_ok_iff (hgrows.locate hbase) h).mp hl).2.1] at hdirectory

/-- Making directories where a path goes straight down from one makes only those on the way. -/
theorem createDirectories_extends (hmake : createDirectories p t = (result, t'))
    (hbase : t.locate base = .ok r) (hr : t.lookup r = some .directory)
    (h : p.Extends base names) (hne : names ≠ []) :
    Grows (· <+: r ++ names) noFile t t' ∧
      (result = .ok () → t'.lookup (r ++ names) = some .directory) :=
  createWithin_extends _ hmake hbase hr h hne

end ObjectStore.FileTree
