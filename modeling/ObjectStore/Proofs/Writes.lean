import ObjectStore.Proofs.FileTree.Growth
import ObjectStore.Proofs.FileTree.Staged
import ObjectStore.Proofs.Places

/-!
# What the writing operations write

`Database.storeRaw`, `Refs.setBranch` and `Repository.create` are the only operations that write.
For each of them this module says how the tree grows, whether the operation succeeds or fails: which
directories may be made, and which single file may be written, with what in it.

* `IsAt.storeRaw_spec`: an object's file, and only where nothing was.
* `IsAt.setBranch_spec`: a branch's file.
* `IsAt.create_spec`: `HEAD`, over nothing or an empty file.

An operation that fails writes no file at all.
-/

namespace ObjectStore

variable {repo : Repository} {r : Location} {t : FileTree} {draw : UInt32}

namespace FileTree

/-- An operation that needs a directory first: it ends there, or goes on in the tree that has it. -/
theorem needDirectory_bind_cases {α : Type} (p : Path) (next : Change StoreError α)
    (t : FileTree) :
    ∃ result made, createDirectories p t = (result, made) ∧
      ((∃ err, (needDirectory p >>= fun _ => next) t = (.error err, made)) ∨
        (needDirectory p >>= fun _ => next) t = next made) := by
  obtain ⟨result, made, hmake⟩ : ∃ result made, createDirectories p t = (result, made) :=
    ⟨_, _, rfl⟩
  refine ⟨result, made, hmake, ?_⟩
  cases result with
  | error fault => exact Or.inl ⟨_, Change.bind_of_error (Change.mapError_of_error hmake)⟩
  | ok => exact Or.inr (Change.bind_of_ok (Change.mapError_of_ok hmake))

/-- An operation that needs a directory first and succeeds has made that one and gone on. -/
theorem createDirectories_of_bind_eq_ok {α : Type} {p : Path} {next : Change StoreError α} {a : α}
    {t' : FileTree} (h : (needDirectory p >>= fun _ => next) t = (.ok a, t')) :
    ∃ made, createDirectories p t = (.ok (), made) ∧ next made = (.ok a, t') := by
  obtain ⟨result, made, hmake⟩ : ∃ result made, createDirectories p t = (result, made) :=
    ⟨_, _, rfl⟩
  cases result with
  | error fault =>
    have hfail : needDirectory p t = (.error (.io p fault), made) :=
      Change.mapError_of_error hmake
    rw [Change.bind_of_error hfail] at h
    cases h
  | ok =>
    have hmade : needDirectory p t = (.ok (), made) := Change.mapError_of_ok hmake
    rw [Change.bind_of_ok hmade] at h
    exact ⟨made, hmake, h⟩

/-- It has made nothing but directories, and goes on in the tree that has that one. -/
theorem needDirectory_bind_eq_ok {α : Type} {p : Path} {next : Change StoreError α} {a : α}
    {t' : FileTree} (h : (needDirectory p >>= fun _ => next) t = (.ok a, t')) :
    ∃ made, Grows (fun _ => True) noFile t made ∧ made.isDirectory p = true ∧
      next made = (.ok a, t') := by
  obtain ⟨made, hmake, hnext⟩ := createDirectories_of_bind_eq_ok h
  obtain ⟨hgrows, hdirectory⟩ := createDirectories_grows hmake
  exact ⟨made, hgrows, hdirectory rfl, hnext⟩

/-- An operation that needs a directory first and fails: it could not make that one, or failed in
the tree that has it. -/
theorem needDirectory_bind_eq_error {α : Type} {p : Path} {next : Change StoreError α}
    {err : StoreError} {t' : FileTree}
    (h : (needDirectory p >>= fun _ => next) t = (.error err, t')) :
    (∃ fault, err = .io p fault ∧ createDirectories p t = (.error fault, t')) ∨
      ∃ made, createDirectories p t = (.ok (), made) ∧ next made = (.error err, t') := by
  obtain ⟨result, made, hmake⟩ : ∃ result made, createDirectories p t = (result, made) :=
    ⟨_, _, rfl⟩
  cases result with
  | error fault =>
    have hfail : needDirectory p t = (.error (.io p fault), made) :=
      Change.mapError_of_error hmake
    rw [Change.bind_of_error hfail] at h
    obtain ⟨herr, rfl⟩ := Prod.mk.inj h
    exact Or.inl ⟨fault, (Except.error.inj herr).symm, hmake⟩
  | ok =>
    have hok : needDirectory p t = (.ok (), made) := Change.mapError_of_ok hmake
    rw [Change.bind_of_ok hok] at h
    exact Or.inr ⟨made, hmake, h⟩

/-- An operation that needs a directory below a base: either way, the tree has only grown by it. -/
theorem Grows.needDirectory_bind_cases {α : Type} {t₀ : FileTree} {made : Location → Prop}
    {p base : Path} {names : List String} (hgrows : Grows made noFile t₀ t)
    (next : Change StoreError α) (hbase : t.locate base = .ok r)
    (hr : t.lookup r = some .directory) (h : p.Extends base names) (hne : names ≠ [])
    (hmade : ∀ l, l <+: r ++ names → made l) :
    ∃ t', Grows made noFile t₀ t' ∧
      ((∃ err, (needDirectory p >>= fun _ => next) t = (.error err, t')) ∨
        (needDirectory p >>= fun _ => next) t = next t') := by
  obtain ⟨result, t', hmake, hrest⟩ := FileTree.needDirectory_bind_cases p next t
  obtain ⟨hstep, -⟩ := createDirectories_extends hmake hbase hr h hne
  exact ⟨t', hgrows.trans (hstep.mono hmade fun _ _ => id), hrest⟩

end FileTree

/-! ## Storing an object -/

namespace Database

variable (db : Database) {kind : String} {payload : Bytes}

/-- An object with a bad kind is refused. -/
theorem storeRaw_of_not_isKind (h : Canonical.isKind kind = false) :
    db.storeRaw draw kind payload t = (.error (.invalidObjectKind kind), t) := by
  refine Change.look_bind_of_error ?_
  rw [Canonical.hash, h]
  rfl

/-- An object that is there is not written again. -/
theorem storeRaw_of_isPresent (h : Canonical.isKind kind = true)
    (hpresent : t.isPresent (db.objectPath (Canonical.idOf kind payload)) = true) :
    db.storeRaw draw kind payload t = (.ok (Canonical.idOf kind payload), t) := by
  have hhash : Canonical.hash kind payload = .ok (Canonical.idOf kind payload) := by
    rw [Canonical.hash, h]
    rfl
  rw [storeRaw, Change.look_bind_of_ok hhash]
  refine (Change.look_bind_of_ok (a := true) (by rw [hpresent])).trans ?_
  rfl

/-- An object that is not there: its directory is made, and then its file is written. -/
theorem storeRaw_of_absent (h : Canonical.isKind kind = true)
    (habsent : t.isPresent (db.objectPath (Canonical.idOf kind payload)) = false) :
    db.storeRaw draw kind payload t =
      (FileTree.needDirectory (db.fanPath (Canonical.idOf kind payload)) >>= fun _ =>
        FileTree.replaceFile draw (db.fanPath (Canonical.idOf kind payload)) "tmp-obj"
          (db.objectPath (Canonical.idOf kind payload))
          (Zlib.compress (Canonical.form kind payload)) >>= fun _ =>
        pure (Canonical.idOf kind payload)) t := by
  have hhash : Canonical.hash kind payload = .ok (Canonical.idOf kind payload) := by
    rw [Canonical.hash, h]
    rfl
  rw [storeRaw, Change.look_bind_of_ok hhash]
  refine (Change.look_bind_of_ok (a := false) (by rw [habsent])).trans ?_
  simp only [Bool.false_eq_true, if_false]

/-- Storing it fails once the directories are made, or puts its file where its path leads. -/
theorem storeRaw_cases (h : Canonical.isKind kind = true)
    (habsent : t.isPresent (db.objectPath (Canonical.idOf kind payload)) = false) :
    ∃ result made,
      FileTree.createDirectories (db.fanPath (Canonical.idOf kind payload)) t = (result, made) ∧
      ((∃ err, db.storeRaw draw kind payload t = (.error err, made)) ∨
        ∃ l, made.locate (db.objectPath (Canonical.idOf kind payload)) = .ok l ∧
          made.lookup l ≠ some .directory ∧
          db.storeRaw draw kind payload t = (.ok (Canonical.idOf kind payload),
            made.put l (.file (Zlib.compress (Canonical.form kind payload))))) := by
  obtain ⟨result, made, hmake, ⟨err, herr⟩ | hnext⟩ := FileTree.needDirectory_bind_cases
    (db.fanPath (Canonical.idOf kind payload)) _ t
  · exact ⟨result, made, hmake, Or.inl ⟨err, (db.storeRaw_of_absent h habsent).trans herr⟩⟩
  · refine ⟨result, made, hmake, ?_⟩
    rw [db.storeRaw_of_absent h habsent, hnext]
    obtain ⟨err, herr⟩ | ⟨l, hl, hdir, hput⟩ := FileTree.replaceFile_cases draw
      (db.fanPath (Canonical.idOf kind payload)) "tmp-obj"
      (db.objectPath (Canonical.idOf kind payload))
      (Zlib.compress (Canonical.form kind payload)) made
    · exact Or.inl ⟨err, Change.bind_of_error herr⟩
    · exact Or.inr ⟨l, hl, hdir, Change.bind_of_ok hput⟩

/-- An object is stored under its id. -/
theorem eq_idOf_of_storeRaw {id : ObjectId} (h : (db.storeRaw draw kind payload t).1 = .ok id) :
    id = Canonical.idOf kind payload := by
  cases hkind : Canonical.isKind kind with
  | false =>
    rw [db.storeRaw_of_not_isKind hkind] at h
    cases h
  | true =>
    cases hpresent : t.isPresent (db.objectPath (Canonical.idOf kind payload)) with
    | true =>
      rw [db.storeRaw_of_isPresent hkind hpresent] at h
      exact (Except.ok.inj h).symm
    | false =>
      obtain ⟨-, made, -, ⟨err, herr⟩ | ⟨l, -, -, hput⟩⟩ := db.storeRaw_cases hkind hpresent
      · rw [herr] at h
        cases h
      · rw [hput] at h
        exact (Except.ok.inj h).symm

end Database

namespace Repository

/-- The file that storing an object writes: the object's, where nothing was in the tree. -/
structure ObjectFile (r : Location) (t : FileTree) (kind : String) (payload : Bytes) (l : Location)
    (content : Bytes) : Prop where
  place : l = objectPlace r (Canonical.idOf kind payload)
  absent : t.lookup l = none
  isKind : Canonical.isKind kind = true
  content : content = Zlib.compress (Canonical.form kind payload)

namespace IsAt

variable (h : repo.IsAt r t)

include h

/-- What stands at an object's place can be seen, if a tree with more directories can hold it. -/
theorem locate_objectPath_of_lookup {t' : FileTree} {id : ObjectId} {l : Location}
    (hat : repo.IsAt r t') (hl : t'.locate (repo.database.objectPath id) = .ok l)
    (hlookup : t.lookup l ≠ none) : t.locate (repo.database.objectPath id) = .ok l := by
  obtain ⟨hshort, rfl, hnames, -⟩ :=
    (FileTree.locate_extends_eq_ok_iff hat.root (hat.objectPath_extends id)).mp hl
  refine (FileTree.locate_extends_eq_ok_iff h.root (h.objectPath_extends id)).mpr
    ⟨hshort, rfl, hnames, fun _ => ?_⟩
  have hparent := FileTree.lookup_dropLast hlookup
  rwa [List.dropLast_append_of_ne_nil (List.cons_ne_nil _ _)] at hparent

/-- Storing an object may make the directory of its file. If it succeeds, the object is there, and
its file was written only if nothing was there before. -/
theorem storeRaw_spec (draw : UInt32) (kind : String) (payload : Bytes) :
    (∃ err t', repo.database.storeRaw draw kind payload t = (.error err, t') ∧
        FileTree.Grows (· <+: r ++ [".git", "objects", (Canonical.idOf kind payload).fanOut.1])
          FileTree.noFile t t') ∨
      Canonical.isKind kind = true ∧ ∃ t',
        repo.database.storeRaw draw kind payload t = (.ok (Canonical.idOf kind payload), t') ∧
        FileTree.Grows (· <+: r ++ [".git", "objects", (Canonical.idOf kind payload).fanOut.1])
          (ObjectFile r t kind payload) t t' ∧
        t'.isPresent (repo.database.objectPath (Canonical.idOf kind payload)) = true := by
  cases hkind : Canonical.isKind kind with
  | false =>
    exact Or.inl ⟨_, t, Database.storeRaw_of_not_isKind _ hkind, FileTree.Grows.refl t⟩
  | true =>
    cases hpresent : t.isPresent (repo.database.objectPath (Canonical.idOf kind payload)) with
    | true =>
      have hsame : repo.database.storeRaw draw kind payload t = _ :=
        repo.database.storeRaw_of_isPresent hkind hpresent
      exact Or.inr ⟨rfl, t, hsame, FileTree.Grows.refl t, hpresent⟩
    | false =>
      obtain ⟨result, made, hmake, hstore⟩ := repo.database.storeRaw_cases hkind hpresent
      obtain ⟨hgrows, -⟩ := FileTree.createDirectories_extends hmake h.root h.directory
        (h.fanPath_extends (Canonical.idOf kind payload)) (List.cons_ne_nil _ _)
      have hat := h.mono fun _ => hgrows.directory
      obtain ⟨err, herr⟩ | ⟨l, hl, hdir, hput⟩ := hstore
      · exact Or.inl ⟨err, made, herr, hgrows⟩
      · have hplace := hat.eq_of_locate_objectPath hl
        have hnone : t.lookup l = none := by
          by_contra hlookup
          obtain ⟨node, hnode⟩ := Option.ne_none_iff_exists'.mp hlookup
          rw [FileTree.isPresent_iff.mpr
            ⟨l, node, h.locate_objectPath_of_lookup hat hl hlookup, hnode⟩] at hpresent
          cases hpresent
        have hfile : ObjectFile r t kind payload l (Zlib.compress (Canonical.form kind payload)) :=
          ⟨hplace, hnone, hkind, rfl⟩
        obtain ⟨hgrows, hread⟩ := hgrows.ofNoFile.file_put hl hdir hfile
        exact Or.inr ⟨rfl, _, hput, hgrows, FileTree.isPresent_of_readFile hread⟩

end IsAt

/-! ## Pointing a branch at an object -/

/-- The file that pointing a branch at an id writes. -/
structure BranchFile (r : Location) (branch : BranchName) (id : ObjectId) (l : Location)
    (content : Bytes) : Prop where
  place : l = branchPlace r branch
  content : content = Refs.branchContent id

end Repository

/-- Pointing a branch at an id makes the directory of its file, and then writes that. -/
theorem Refs.setBranch_of_parent? {refs : Refs} {branch : BranchName} {directory : Path}
    (h : (refs.branchPath branch).parent? = some directory) (id : ObjectId) :
    refs.setBranch draw branch id = FileTree.needDirectory directory >>= fun _ =>
      FileTree.replaceFile draw refs.gitPath "tmp-ref" (refs.branchPath branch)
        (branchContent id) := by
  rw [setBranch]
  simp only [h]

/-- Pointing a branch at an id, when its file lies some names below a directory. The directories of
that file may be made. If it succeeds, the file is written and holds the id. -/
theorem Refs.setBranch_cases {refs : Refs} {branch : BranchName} {base : Path} {names : List String}
    (draw : UInt32) (hbase : t.locate base = .ok r) (hr : t.lookup r = some .directory)
    (hextends : (refs.branchPath branch).Extends base (names ++ branch.components))
    (hne : names ≠ []) (id : ObjectId) :
    (∃ err t', refs.setBranch draw branch id t = (.error err, t') ∧
        FileTree.Grows (· <+: (r ++ (names ++ branch.components)).dropLast) FileTree.noFile t t') ∨
      ∃ t', refs.setBranch draw branch id t = (.ok (), t') ∧
        FileTree.Grows (· <+: (r ++ (names ++ branch.components)).dropLast)
          (FileTree.oneFile (r ++ (names ++ branch.components)) (branchContent id)) t t' ∧
        t'.readFile (refs.branchPath branch) = .ok (branchContent id) := by
  obtain ⟨front, n, hcomponents⟩ :=
    (List.eq_nil_or_concat' branch.components).resolve_left branch.components_ne_nil
  have hfile := hextends
  rw [hcomponents, ← List.append_assoc] at hextends
  have hfront : names ++ front ≠ [] := by simp [hne]
  obtain ⟨directory, hparent, hdirectory⟩ := hextends.parent? hfront
  have hplace : (r ++ (names ++ branch.components)).dropLast = r ++ (names ++ front) := by
    rw [hcomponents, ← List.append_assoc, ← List.append_assoc, List.dropLast_concat,
      List.append_assoc]
  rw [setBranch_of_parent? hparent, hplace]
  obtain ⟨result, made, hmake, hrest⟩ := FileTree.needDirectory_bind_cases directory
    (FileTree.replaceFile draw refs.gitPath "tmp-ref" (refs.branchPath branch) (branchContent id))
    t
  obtain ⟨hgrows, -⟩ := FileTree.createDirectories_extends hmake hbase hr hdirectory hfront
  obtain ⟨err, herr⟩ | hnext := hrest
  · exact Or.inl ⟨err, made, herr, hgrows⟩
  rw [hnext]
  obtain ⟨err, herr⟩ | ⟨l, hl, hdir, hput⟩ := FileTree.replaceFile_cases draw refs.gitPath
    "tmp-ref" (refs.branchPath branch) (branchContent id) made
  · exact Or.inl ⟨err, made, herr, hgrows⟩
  · have hl' : l = r ++ (names ++ branch.components) :=
      ((FileTree.locate_extends_eq_ok_iff (hgrows.locate hbase) hfile).mp hl).2.1
    have hw : FileTree.oneFile (r ++ (names ++ branch.components)) (branchContent id) l
        (branchContent id) := ⟨hl', rfl⟩
    obtain ⟨hgrows, hread⟩ := hgrows.ofNoFile.file_put hl hdir hw
    exact Or.inr ⟨_, hput, hgrows, hread⟩

/-- Pointing a branch at an id makes directories if need be, and then puts the file of the branch
where its path leads. -/
theorem Refs.exists_put_of_setBranch {refs : Refs} {branch : BranchName} {id : ObjectId}
    (h : refs.setBranch draw branch id t = (.ok (), t')) :
    ∃ made l, FileTree.Grows (fun _ => True) FileTree.noFile t made ∧
      made.locate (refs.branchPath branch) = .ok l ∧ made.lookup l ≠ some .directory ∧
      t' = made.put l (.file (branchContent id)) := by
  obtain ⟨made, hgrows, hwrite⟩ : ∃ made, FileTree.Grows (fun _ => True) FileTree.noFile t made ∧
      FileTree.replaceFile draw refs.gitPath "tmp-ref" (refs.branchPath branch) (branchContent id)
        made = (.ok (), t') := by
    cases hparent : (refs.branchPath branch).parent? with
    | none =>
      simp only [setBranch, hparent] at h
      exact ⟨t, .refl t, h⟩
    | some directory =>
      rw [setBranch_of_parent? hparent] at h
      obtain ⟨made, hgrows, -, hwrite⟩ := FileTree.needDirectory_bind_eq_ok h
      exact ⟨made, hgrows, hwrite⟩
  obtain ⟨err, herr⟩ | ⟨l, hl, hdir, hput⟩ := FileTree.replaceFile_cases draw refs.gitPath
    "tmp-ref" (refs.branchPath branch) (branchContent id) made
  · rw [hwrite] at herr
    cases herr
  · exact ⟨made, l, hgrows, hl, hdir, (Prod.mk.inj (hwrite.symm.trans hput)).2⟩

/-- A branch that was pointed at an id has that in its file. -/
theorem Refs.readFile_of_setBranch {refs : Refs} {branch : BranchName} {id : ObjectId}
    (h : refs.setBranch draw branch id t = (.ok (), t')) :
    t'.readFile (refs.branchPath branch) = .ok (branchContent id) := by
  obtain ⟨made, l, hgrows, hl, hdir, rfl⟩ := exists_put_of_setBranch h
  have hw : FileTree.oneFile l (branchContent id) l (branchContent id) := ⟨rfl, rfl⟩
  exact (hgrows.ofNoFile.file_put hl hdir hw).2

namespace Repository

/-- Pointing a branch at an id may make the directories of its file. If it succeeds, that file is
written and holds the id. -/
theorem IsAt.setBranch_spec (h : repo.IsAt r t) (draw : UInt32) (branch : BranchName)
    (id : ObjectId) :
    (∃ err t', repo.refs.setBranch draw branch id t = (.error err, t') ∧
        FileTree.Grows (· <+: (branchPlace r branch).dropLast) FileTree.noFile t t') ∨
      ∃ t', repo.refs.setBranch draw branch id t = (.ok (), t') ∧
        FileTree.Grows (· <+: (branchPlace r branch).dropLast) (BranchFile r branch id) t t' ∧
        t'.readFile (repo.refs.branchPath branch) = .ok (Refs.branchContent id) := by
  obtain herr | ⟨t', hok, hgrows, hread⟩ := Refs.setBranch_cases draw h.root h.directory
    (h.branchPath_extends branch) (List.cons_ne_nil _ _) id
  · exact Or.inl herr
  · have hfile : ∀ l content, FileTree.oneFile (branchPlace r branch) (Refs.branchContent id) l
        content → BranchFile r branch id l content := fun l content hw => ⟨hw.1, hw.2⟩
    exact Or.inr ⟨t', hok, hgrows.mono (fun l hl => hl) hfile, hread⟩

/-! ## Creating a repository -/

/-- What `HEAD` holds is not empty. -/
theorem ofString_symbolic_ne_nil (branch : BranchName) :
    Bytes.ofString (Layout.symbolic branch) ≠ [] := by
  have hfront : Bytes.ofString "ref: " ≠ [] := by decide
  rw [Layout.symbolic, Bytes.ofString_append, Bytes.ofString_append]
  simp [hfront]

/-- Installing a staged `HEAD` fails, or leaves what is there, or puts the content over nothing or
an empty file. The staged file is gone afterwards. -/
theorem installHead_cases {staged : Path} {content : Bytes} {t' : FileTree}
    (h : FileTree.IsStaged staged content t t') (hne : content ≠ []) (head : Path) :
    (∃ err, installHead staged head t' = (.error err, t)) ∨
      (t'.isPresent head = true ∧ t'.isEmptyFile head = false ∧
        installHead staged head t' = (.ok (), t)) ∨
      ∃ l, t.locate head = .ok l ∧ (t.lookup l = none ∨ t.lookup l = some (.file [])) ∧
        installHead staged head t' = (.ok (), t.put l (.file content)) := by
  obtain ⟨fault, hfail, hexists⟩ | ⟨l, hl, hnone, hmake⟩ :=
    FileTree.createFile_cases head content t'
  · have hlink : FileTree.link staged head t' = (.error fault, t') := by
      simp only [FileTree.link, h.readFile, hfail]
    by_cases hfault : fault = .alreadyExists
    · subst hfault
      cases hempty : t'.isEmptyFile head with
      | false =>
        refine Or.inr (Or.inl ⟨hexists rfl, rfl, ?_⟩)
        simp only [installHead, hlink, hempty, h.unlink]
        rfl
      | true =>
        have hinstall : installHead staged head t' = FileTree.publish staged head t' := by
          simp only [installHead, hlink, hempty, if_true]
        have hread : t'.readFile head = .ok [] := FileTree.isEmptyFile_iff.mp hempty
        obtain ⟨k, hk, hlookup⟩ := FileTree.readFile_eq_ok_iff.mp hread
        have hold : t.lookup k = some (.file []) :=
          h.lookup_eq hlookup fun heq => hne (Node.file.inj heq).symm
        rw [hinstall]
        obtain ⟨err, herr⟩ | ⟨l, hl, -, hput⟩ := FileTree.publish_cases h head
        · exact Or.inl ⟨err, herr⟩
        · obtain rfl : k = l := Except.ok.inj ((h.locate_iff.mp hk).symm.trans hl)
          exact Or.inr (Or.inr ⟨k, hl, Or.inr hold, hput⟩)
    · refine Or.inl ⟨.io head fault, ?_⟩
      simp only [installHead, hlink, h.unlink]
  · have hlink : FileTree.link staged head t' = (.ok (), t'.put l (.file content)) := by
      simp only [FileTree.link, h.readFile, hmake]
    obtain ⟨hold, hunlink⟩ := h.unlink_put hl hnone
    refine Or.inr (Or.inr ⟨l, h.locate_iff.mp hl, Or.inl hold, ?_⟩)
    simp only [installHead, hlink, hunlink]

/-- Writing `HEAD` by way of a staged file fails, or leaves what is there beside the staged file, or
puts the content over nothing or an empty file. -/
theorem stage_installHead_cases (draw : UInt32) (directory head : Path) {content : Bytes}
    (hne : content ≠ []) (t : FileTree) :
    let write := FileTree.stage draw directory "tmp-head" content >>= fun staged =>
      installHead staged head
    (∃ err, write t = (.error err, t)) ∨
      (write t = (.ok (), t) ∧ ∃ n t',
        FileTree.IsStaged (FileTree.stagedPath directory "tmp-head" n) content t t' ∧
          t'.isPresent head = true ∧ t'.isEmptyFile head = false) ∨
      ∃ l, t.locate head = .ok l ∧ (t.lookup l = none ∨ t.lookup l = some (.file [])) ∧
        write t = (.ok (), t.put l (.file content)) := by
  intro write
  obtain ⟨err, herr⟩ | ⟨n, t', hstaged, hstage⟩ :=
    FileTree.stage_cases draw directory "tmp-head" content t
  · exact Or.inl ⟨err, Change.bind_of_error herr⟩
  have hwrite : write t = installHead (FileTree.stagedPath directory "tmp-head" n) head t' :=
    Change.bind_of_ok hstage
  rw [hwrite]
  obtain herr | ⟨hpresent, hempty, hkeep⟩ | hput := installHead_cases hstaged hne head
  · exact Or.inl herr
  · exact Or.inr (Or.inl ⟨hkeep, n, t', hstaged, hpresent, hempty⟩)
  · exact Or.inr (Or.inr hput)

/-- Once a repository is created, its directories are there. -/
theorem isDirectory_of_create {t' : FileTree} (h : repo.create draw t = (.ok (), t')) :
    t'.isDirectory (repo.layout.objectsPath repo.root) = true ∧
      t'.isDirectory (repo.layout.headsPath repo.root) = true := by
  obtain ⟨made, -, hobjects, h⟩ := FileTree.needDirectory_bind_eq_ok h
  obtain ⟨made', hgrows, hheads, h⟩ := FileTree.needDirectory_bind_eq_ok h
  have hobjects := hgrows.isDirectory hobjects
  obtain ⟨err, herr⟩ | ⟨hkeep, -⟩ | ⟨l, hl, hfree, hput⟩ := stage_installHead_cases draw
    repo.gitPath repo.headPath (ofString_symbolic_ne_nil repo.layout.defaultBranch) made'
  · have := herr.symm.trans h
    cases this
  · obtain ⟨-, rfl⟩ := Prod.mk.inj (hkeep.symm.trans h)
    exact ⟨hobjects, hheads⟩
  · obtain ⟨-, rfl⟩ := Prod.mk.inj (hput.symm.trans h)
    have hne : made'.lookup l ≠ some .directory := by
      rcases hfree with hfree | hfree <;> simp [hfree]
    have hw : FileTree.oneFile l (Bytes.ofString (Layout.symbolic repo.layout.defaultBranch)) l
        (Bytes.ofString (Layout.symbolic repo.layout.defaultBranch)) := ⟨rfl, rfl⟩
    have hrefl : FileTree.Grows (fun _ => True) (FileTree.oneFile l
        (Bytes.ofString (Layout.symbolic repo.layout.defaultBranch))) made' made' := .refl made'
    obtain ⟨hgrows, -⟩ := hrefl.file_put hl hne hw
    exact ⟨hgrows.isDirectory hobjects, hgrows.isDirectory hheads⟩

/-- The file that creating a repository writes: `HEAD`, where nothing or an empty file was. -/
structure HeadFile (repo : Repository) (r : Location) (t : FileTree) (l : Location)
    (content : Bytes) : Prop where
  place : l = headPlace r
  free : t.lookup l = none ∨ t.lookup l = some (.file [])
  content : content = Bytes.ofString (Layout.symbolic repo.layout.defaultBranch)

/-- The directories that creating a repository makes. -/
def IsFrame (r l : Location) : Prop :=
  l <+: r ++ [".git", "objects"] ∨ l <+: r ++ [".git", "refs", "heads"]

/-- `HEAD` is not kept where a directory of the repository itself is. -/
theorem not_isFrame_headPlace (r : Location) : ¬ IsFrame r (headPlace r) := by
  rintro (h | h)
  · have := (List.prefix_append_right_inj r).mp h
    simp at this
  · have := (List.prefix_append_right_inj r).mp h
    simp at this

/-- What stands beside a staged file in the place of `HEAD` was there before. -/
theorem IsAt.headPlace_of_isStaged (h : repo.IsAt r t) {n : Nat} {content : Bytes} {t' : FileTree}
    (hstaged : FileTree.IsStaged (FileTree.stagedPath repo.gitPath "tmp-head" n) content t t')
    (hpresent : t'.isPresent repo.headPath = true) (hempty : t'.isEmptyFile repo.headPath = false) :
    t.lookup (headPlace r) ≠ none ∧ t.lookup (headPlace r) ≠ some (.file []) := by
  have hextends : (FileTree.stagedPath repo.gitPath "tmp-head" n).Extends repo.root
      [".git", "tmp-head" ++ "-" ++ Numeral.decimal n] :=
    h.gitPath_extends.trans
      (FileTree.stagedPath_extends h.gitPath_extends.text_ne (by decide) (by decide) n)
  obtain ⟨l, node, hl, hnode⟩ := FileTree.isPresent_iff.mp hpresent
  obtain rfl := h.eq_of_locate_headPath (hstaged.locate_iff.mp hl)
  have hsame : t.lookup (headPlace r) = some node := by
    obtain ⟨staged, hplace, -, rfl⟩ := hstaged
    have hne : headPlace r ≠ staged := by
      rw [((FileTree.locate_extends_eq_ok_iff h.root hextends).mp hplace).2.1]
      intro heq
      have hname : "HEAD" = "tmp-head" ++ "-" ++ Numeral.decimal n := by
        simpa using List.append_cancel_left heq
      have hhead := congrArg (·.toList.head?) hname
      simp at hhead
    rwa [FileTree.lookup_put_of_ne hne] at hnode
  rw [hsame]
  refine ⟨nofun, fun hnil => ?_⟩
  have hread : t'.readFile repo.headPath = .ok [] :=
    FileTree.readFile_eq_ok_iff.mpr ⟨_, hl, hnode.trans hnil⟩
  rw [FileTree.isEmptyFile_iff.mpr hread] at hempty
  cases hempty

/-- Creating a repository may make its directories, and writes `HEAD` only where nothing or an empty
file was. If it succeeds and that was so, `HEAD` is there. -/
theorem IsAt.create_spec (h : repo.IsAt r t) (draw : UInt32) :
    (∃ err t', repo.create draw t = (.error err, t') ∧
        FileTree.Grows (IsFrame r) FileTree.noFile t t') ∨
      ∃ t', repo.create draw t = (.ok (), t') ∧
        FileTree.Grows (IsFrame r) (HeadFile repo r t) t t' ∧
        (t.lookup (headPlace r) = none ∨ t.lookup (headPlace r) = some (.file []) →
          t'.readFile repo.headPath
            = .ok (Bytes.ofString (Layout.symbolic repo.layout.defaultBranch))) := by
  rw [create]
  have hrefl : FileTree.Grows (IsFrame r) FileTree.noFile t t := FileTree.Grows.refl t
  have hobjects : (repo.layout.objectsPath repo.root).Extends repo.root [".git", "objects"] :=
    h.objects_extends
  obtain ⟨made, hgrows, ⟨err, herr⟩ | hnext⟩ := hrefl.needDirectory_bind_cases _ h.root h.directory
    hobjects (List.cons_ne_nil _ _) fun _ => Or.inl
  · exact Or.inl ⟨err, made, herr, hgrows⟩
  rw [hnext]
  have hat := h.mono fun _ => hgrows.directory
  obtain ⟨made, hgrows, ⟨err, herr⟩ | hnext⟩ := hgrows.needDirectory_bind_cases _ hat.root
    hat.directory hat.headsPath_extends (List.cons_ne_nil _ _) fun _ => Or.inr
  · exact Or.inl ⟨err, made, herr, hgrows⟩
  rw [hnext]
  have hat := h.mono fun _ => hgrows.directory
  have hsame : made.lookup (headPlace r) = t.lookup (headPlace r) :=
    hgrows.lookup_eq (not_isFrame_headPlace r) fun _ => id
  obtain ⟨err, herr⟩ | ⟨hkeep, n, t', hstaged, hpresent, hempty⟩ | ⟨l, hl, hfree, hput⟩ :=
    stage_installHead_cases draw repo.gitPath repo.headPath
      (ofString_symbolic_ne_nil repo.layout.defaultBranch) made
  · exact Or.inl ⟨err, made, herr, hgrows⟩
  · refine Or.inr ⟨made, hkeep, hgrows.ofNoFile, fun hfree => ?_⟩
    obtain ⟨hthere, hfull⟩ := hat.headPlace_of_isStaged hstaged hpresent hempty
    rw [← hsame] at hfree
    exact (hfree.elim hthere hfull).elim
  · obtain rfl := hat.eq_of_locate_headPath hl
    have hdir : made.lookup (headPlace r) ≠ some .directory := by
      rcases hfree with hfree | hfree <;> simp [hfree]
    have hfile : HeadFile repo r t (headPlace r) _ := ⟨rfl, hsame ▸ hfree, rfl⟩
    obtain ⟨hgrows, hread⟩ := hgrows.ofNoFile.file_put hl hdir hfile
    exact Or.inr ⟨_, hput, hgrows, fun _ => hread⟩

end Repository

end ObjectStore
